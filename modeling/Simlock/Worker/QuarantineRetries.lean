import Simlock.Worker.Quarantine

/-! No quarantined device is forgotten, and none is retried for ever.

    A retry counts from the record it read. `QuarantineOk` says how that record and the registry
    agree: while a retry holds the claim nobody else counts, so what it counts never falls below what
    is stored, and what is stored stays below the limit until the device is given up. From it:

        Watched      a timer, a retry or an entry attends every quarantined device
        climbs       the attempts of a quarantined device never decrease
        spends       at most `maxRetries` attempts fail before a device is given up

    The first needs every write of a retry to be taken: a write that throws ends the retry with
    nothing armed. -/

namespace Simlock.Worker

open Simlock.Lib Simlock.Core

/-! ### The invariant -/

structure Counted (c : QuarantineOptions) (x : Standing) (q : Quarantine) : Prop where
  nonneg : 0 ≤ q.attempts
  below : q.nextRetryAt ≠ none → q.attempts < c.maxRetries
  physical : x.isPhysical = true → q.nextRetryAt ≠ none

/-- What a retry read agrees with the device of its id. -/
structure SnapshotOk (c : QuarantineOptions) (s : QuarantineHost) (deviceId : String) (d : Device) :
    Prop where
  nonneg : 0 ≤ d.attempts
  below : d.isPhysical = true → d.attempts < c.maxRetries
  same : ∀ x, s.store.registry.standing deviceId = some x →
    x.isPhysical = d.isPhysical ∧ x.platform = d.platform

/-- The attempts a stage passes on count on from the record that was read. -/
def StageOk (c : QuarantineOptions) (d : Device) : RetryStage → Prop
  | .presence => d.isPhysical = true
  | .reclaim attempts => d.isPhysical = true ∧ attempts = d.attempts + 1
  | .destroy attempts => d.isPhysical = false ∧ attempts = d.attempts + 1 ∧ d.platform ∈ c.drivers
  | .lastDestroy attempts => d.isPhysical = false ∧ attempts = d.attempts + 1
  | .write (.failure attempts _) =>
    attempts < c.maxRetries ∧ (attempts = d.attempts ∨ attempts = d.attempts + 1)
  | .write (.stranded attempts) => d.isPhysical = false ∧ attempts = d.attempts + 1
  | _ => True

/-- The write of the retry is through. -/
def RetryStage.written : RetryStage → Bool
  | .arm _ | .end_ => true
  | _ => false

def QuarantineHost.CountsFrom (s : QuarantineHost) (deviceId : String) (d : Device) : Prop :=
  ∀ x q, s.store.registry.standing deviceId = some x → x.quarantine = some q →
    q.attempts ≤ d.attempts

/-- A retry of the same device has written since, and still holds its claim. -/
def QuarantineHost.Overtaken (s : QuarantineHost) (deviceId : String) (turn : Nat) : Prop :=
  ∃ (j : Nat) (r : Retry) (d : Device) (stage : RetryStage), s.retries[j]? = some r ∧
    r.deviceId = deviceId ∧ turn < r.turn ∧ r.point = .claimed d stage ∧ stage.written = true

def RetryOk (c : QuarantineOptions) (s : QuarantineHost) (r : Retry) : Prop :=
  match r.point with
  | .found d => SnapshotOk c s r.deviceId d ∧ r.turn < s.turns ∧
    (s.CountsFrom r.deviceId d ∨ s.Overtaken r.deviceId r.turn)
  | .claimed d stage => SnapshotOk c s r.deviceId d ∧ StageOk c d stage ∧
    (stage.written = false → s.CountsFrom r.deviceId d)
  | _ => True

structure QuarantineOk (c : QuarantineOptions) (s : QuarantineHost) : Prop where
  store : StoreOk s.store
  counted : ∀ deviceId x q, s.store.registry.standing deviceId = some x → x.quarantine = some q →
    Counted c x q
  retries : ∀ (i : Nat) (r : Retry), s.retries[i]? = some r → RetryOk c s r
  /-- One retry at a time holds the claim of a device. -/
  alone : ∀ (i j : Nat) (r r' : Retry), s.retries[i]? = some r → s.retries[j]? = some r' →
    r.point.holdsClaim = true → r'.point.holdsClaim = true → r.deviceId = r'.deviceId → i = j

/-! ### What happens outside the retries -/

/-- A device that stays keeps its kind, and its quarantine stays, is over, or has just begun. -/
structure Outside (x x' : Standing) : Prop where
  isPhysical : x'.isPhysical = x.isPhysical
  platform : x'.platform = x.platform
  quarantine : x'.quarantine = none ∨ x'.quarantine = x.quarantine ∨
    x.quarantine = none ∧ ∃ nextRetryAt, x'.quarantine = some ⟨0, some nextRetryAt⟩

theorem Outside.refl (x : Standing) : Outside x x := ⟨rfl, rfl, .inr (.inl rfl)⟩

theorem Outside.of_rests {x x' : Standing} (h : Rests x x') : Outside x x' :=
  ⟨h.isPhysical, h.platform, h.quarantine.imp id .inl⟩

/-- Every device of `s'` was one of `s`, as far as the retries can tell, or is new to them. -/
def RunsOutside (s s' : QuarantineHost) : Prop :=
  ∀ deviceId x', s'.store.registry.standing deviceId = some x' →
    (∃ x, s.store.registry.standing deviceId = some x ∧ Outside x x') ∨
      (∀ r ∈ s.retries, r.deviceId ≠ deviceId) ∧ x'.quarantine = none

section Steps

variable {c : QuarantineOptions} {s s' : QuarantineHost} {now : Int} {deviceId : String}

theorem RunsOutside.same (h : s'.store.registry = s.store.registry) : RunsOutside s s' := by
  intro deviceId x' hx'
  rw [h] at hx'
  exact .inl ⟨x', hx', Outside.refl x'⟩

theorem RunsOutside.snapshot (h : RunsOutside s s') {r : Retry} {d : Device} (hr : r ∈ s.retries)
    (hok : SnapshotOk c s r.deviceId d) : SnapshotOk c s' r.deviceId d := by
  refine ⟨hok.nonneg, hok.below, fun x' hx' => ?_⟩
  rcases h r.deviceId x' hx' with ⟨x, hx, hout⟩ | ⟨hnew, -⟩
  · rw [hout.isPhysical, hout.platform]
    exact hok.same x hx
  · exact absurd rfl (hnew r hr)

theorem RunsOutside.countsFrom (h : RunsOutside s s') {d : Device} (hd : 0 ≤ d.attempts)
    (hok : s.CountsFrom deviceId d) : s'.CountsFrom deviceId d := by
  intro x' q' hx' hq'
  rcases h deviceId x' hx' with ⟨x, hx, hout⟩ | ⟨-, hnone⟩
  · rcases hout.quarantine with hnone | hsame | ⟨-, nextRetryAt, hnew⟩
    · rw [hnone] at hq'
      cases hq'
    · exact hok x q' hx (hsame ▸ hq')
    · rw [hnew] at hq'
      cases hq'
      exact hd
  · rw [hnone] at hq'
    cases hq'

theorem RunsOutside.retryOk (h : RunsOutside s s') (hretries : s'.retries = s.retries)
    (hturns : s.turns ≤ s'.turns) {r : Retry} (hr : r ∈ s.retries) (hok : RetryOk c s r) :
    RetryOk c s' r := by
  unfold RetryOk at hok ⊢
  split
  · rename_i d hpoint
    rw [hpoint] at hok
    obtain ⟨hsnap, hturn, hcounts⟩ := hok
    refine ⟨h.snapshot hr hsnap, by omega, hcounts.imp (h.countsFrom hsnap.nonneg) ?_⟩
    rintro ⟨j, r', d', stage, hj, hrest⟩
    exact ⟨j, r', d', stage, hretries ▸ hj, hrest⟩
  · rename_i d stage hpoint
    rw [hpoint] at hok
    obtain ⟨hsnap, hstage, hcounts⟩ := hok
    exact ⟨h.snapshot hr hsnap, hstage, fun hw => h.countsFrom hsnap.nonneg (hcounts hw)⟩
  · trivial

theorem RunsOutside.counted (h : RunsOutside s s')
    (hok : ∀ deviceId x q, s.store.registry.standing deviceId = some x → x.quarantine = some q →
      Counted c x q) :
    ∀ deviceId x q, s'.store.registry.standing deviceId = some x → x.quarantine = some q →
      Counted c x q := by
  intro deviceId x' q' hx' hq'
  rcases h deviceId x' hx' with ⟨x, hx, hout⟩ | ⟨-, hnone⟩
  · rcases hout.quarantine with hnone | hsame | ⟨-, nextRetryAt, hnew⟩
    · rw [hnone] at hq'
      cases hq'
    · have hcounted := hok deviceId x q' hx (hsame ▸ hq')
      exact ⟨hcounted.nonneg, hcounted.below, fun hp => hcounted.physical (hout.isPhysical ▸ hp)⟩
    · rw [hnew] at hq'
      cases hq'
      exact ⟨Int.le_refl 0, fun _ => c.maxRetries_pos, fun _ => by simp⟩
  · rw [hnone] at hq'
    cases hq'

/-- A step that leaves the retries alone keeps the invariant. -/
theorem QuarantineOk.outside (h : QuarantineOk c s) (hstore : StoreOk s'.store)
    (hout : RunsOutside s s') (hretries : s'.retries = s.retries) (hturns : s.turns ≤ s'.turns) :
    QuarantineOk c s' := by
  refine ⟨hstore, hout.counted h.counted, ?_, ?_⟩
  · intro i r hr
    rw [hretries] at hr
    exact hout.retryOk hretries hturns (List.mem_of_getElem? hr) (h.retries i r hr)
  · rw [hretries]
    exact h.alone

/-! ### Sections of other modules, and entries -/

theorem Section.call_quarantines {w : Section} {r : Registry} (hw : w.isQuarantine = false)
    (htyped : w.Typed r) : w.call.quarantines = false := by
  cases w with
  | purged deviceId target =>
    rcases htyped with rfl | rfl <;> rfl
  | enterQuarantine | enterFromStalledTransition | retryFailed | recovered | stranded
  | deleteQuarantined => cases hw
  | _ => rfl

theorem attempted_ok (call : Call) (writable : Bool) (h : StoreOk s.store) (hle : s.store.clock ≤ now)
    (hfits : call.Fits s.store.registry) : StoreOk (s.call c call now writable).store :=
  (attempted_spec _ h hle hfits).1

/-- A section of another module keeps every quarantine, or ends it. -/
theorem section_rests (h : StoreOk s.store) {w : Section} {writable : Bool}
    (hadmits : c.Admits s (now, .section_ w writable)) {x' : Standing}
    (hx' : (s.call c w.call now writable).store.registry.standing deviceId = some x') :
    (∃ x, s.store.registry.standing deviceId = some x ∧ Rests x x') ∨
      (∀ r ∈ s.retries, r.deviceId ≠ deviceId) ∧ x'.quarantine = none := by
  obtain ⟨⟨hle, hfits, htyped⟩, hother, hnew⟩ := hadmits
  change (s.store.attempted c.registry w.call now writable).registry.standing deviceId = some x'
    at hx'
  obtain ⟨-, ⟨hsame, -⟩ | ⟨-, draft, hcall, hcommit⟩⟩ :=
    attempted_spec writable (o := c.registry) h hle hfits
  · rw [hsame] at hx'
    exact .inl ⟨x', hx', Rests.refl x'⟩
  · rw [hcommit] at hx'
    have hfresh : ∀ id physical, w.call.adds = some (id, physical) →
        id ∉ s.store.registry.devices.map Device.id := by
      intro id physical hadds
      cases w with
      | register id' driverDeviceId spec driverData => cases hadds; exact hfits
      | enroll id' input => cases hadds; exact hfits
      | _ => cases hadds
    rcases commit_rests h.ok.devicesOk hfresh (Section.call_quarantines hother htyped) hcall hx' with
      hrests | ⟨physical, hadds, hnone⟩
    · exact .inl hrests
    · exact .inr ⟨hnew _ _ hadds, hnone⟩

/-- A section of another module runs outside the retries. -/
theorem section_outside (h : StoreOk s.store) {w : Section} {writable : Bool}
    (hadmits : c.Admits s (now, .section_ w writable)) :
    RunsOutside s (s.call c w.call now writable) := by
  intro deviceId x' hx'
  rcases section_rests h hadmits hx' with ⟨x, hx, hrests⟩ | hnew
  · exact .inl ⟨x, hx, Outside.of_rests hrests⟩
  · exact .inr hnew

variable (deviceId) in
/-- An entry's write leaves the registry, or begins the quarantine of its device. -/
theorem enter_writes (cause : QuarantineCause) (nextRetryAt : Int) (writable : Bool) (h : StoreOk s.store)
    (hle : s.store.clock ≤ now) :
    (s.store.attempted c.registry (.enterQuarantine deviceId nextRetryAt cause) now
        writable).registry = s.store.registry ∨
      s.store.returns c.registry (.enterQuarantine deviceId nextRetryAt cause) now writable = true ∧
        ∃ draft, WritesQuarantine s.store.registry c.registry now draft deviceId (· = none)
            (some ⟨0, some nextRetryAt⟩) ∧
          (s.store.attempted c.registry (.enterQuarantine deviceId nextRetryAt cause) now
            writable).registry = Registry.commit c.registry now draft := by
  obtain ⟨-, ⟨hsame, -⟩ | ⟨hreturns, draft, hcall, hcommit⟩⟩ :=
    attempted_spec writable (o := c.registry) (c := .enterQuarantine deviceId nextRetryAt
      cause) h hle trivial
  · exact .inl hsame
  · exact .inr ⟨hreturns rfl, draft,
      (enterQuarantine_quarantine nextRetryAt cause).writes h.ok.devicesOk hcall, hcommit⟩

theorem enter_outside (h : StoreOk s.store) {cause : QuarantineCause} {nextRetryAt : Int}
    {writable : Bool} (hle : s.store.clock ≤ now) :
    RunsOutside s (s.enter c deviceId cause nextRetryAt now writable) := by
  have hregistry : (s.enter c deviceId cause nextRetryAt now writable).store =
      s.store.attempted c.registry (.enterQuarantine deviceId nextRetryAt cause) now writable := by
    simp only [QuarantineHost.enter]
    split <;> rfl
  rcases enter_writes deviceId cause nextRetryAt writable (c := c) h hle with
    hsame | ⟨-, draft, ⟨x, hx, hnone, v, hcommitted, hv⟩, hcommit⟩
  · exact .same (by rw [hregistry, hsame])
  · intro id x' hx'
    rw [hregistry, hcommit, hcommitted] at hx'
    by_cases hid : id = deviceId
    · rw [hid, Function.update_self] at hx'
      rw [hid, hv x' hx']
      exact .inl ⟨x, hx, rfl, rfl, .inr (.inr ⟨hnone, nextRetryAt, rfl⟩)⟩
    · rw [Function.update_of_ne hid] at hx'
      exact .inl ⟨x', hx', Outside.refl x'⟩

variable (now) (deviceId) in
theorem enter_retries (cause : QuarantineCause) (nextRetryAt : Int) (writable : Bool) :
    (s.enter c deviceId cause nextRetryAt now writable).retries = s.retries ∧
      (s.enter c deviceId cause nextRetryAt now writable).turns = s.turns + 1 := by
  simp only [QuarantineHost.enter]
  split <;> exact ⟨rfl, rfl⟩

theorem QuarantineOk.enter (h : QuarantineOk c s) {cause : QuarantineCause} {nextRetryAt : Int}
    {writable : Bool} (hle : s.store.clock ≤ now) :
    QuarantineOk c (s.enter c deviceId cause nextRetryAt now writable) := by
  obtain ⟨hretries, hturns⟩ := enter_retries now deviceId (c := c) (s := s)
    cause nextRetryAt writable
  refine h.outside ?_ (enter_outside h.store hle) hretries (by omega)
  have hok := attempted_ok (.enterQuarantine deviceId nextRetryAt cause) writable (c := c) h.store hle trivial
  simp only [QuarantineHost.enter]
  split <;> exact hok

/-! ### What a retry's step does -/

/-- A step of the retry `r` that writes nothing and reads nothing. -/
inductive Goes (c : QuarantineOptions) (s : QuarantineHost) (r : Retry) (now : Int) :
    RetryPoint → Prop
  | claims {d : Device} (hpoint : r.point = .found d) (hfree : s.isClaimed r.deviceId = false) :
    Goes c s r now (.claimed d (c.begin_ d))
  | presence {d : Device} (present : Bool) (hpoint : r.point = .claimed d .presence) :
    Goes c s r now (.claimed d (c.afterPresence d present now))
  | driver {d : Device} {stage stage' : RetryStage} (answer : Option DeviceState)
    (hpoint : r.point = .claimed d stage) (hafter : c.afterDriver d answer now stage = some stage') :
    Goes c s r now (.claimed d stage')
  | ends {d : Device} (hpoint : r.point = .claimed d .end_) (hdue : s.isDue r = true) :
    Goes c s r now .over

/-- Every step of the retry `r` at position `i`. -/
inductive RetryStep (c : QuarantineOptions) (s : QuarantineHost) (i : Nat) (r : Retry) (now : Int)
    (m : RetryMove) : QuarantineHost → Prop
  | stays : RetryStep c s i r now m (s.at_ now)
  | goes {x : RetryPoint} (hgoes : Goes c s r now x) :
    RetryStep c s i r now m ((s.at_ now).setRetry i { r with point := x })
  | finds {d : Device} (hpoint : r.point = .reading)
    (hd : s.store.registry.device r.deviceId = some d) (hq : d.state = .quarantined) :
    RetryStep c s i r now m ((s.pass now).setRetry i ⟨r.deviceId, .found d, s.turns⟩)
  | leaves (hpoint : r.point = .reading)
    (hnone : ∀ x, s.store.registry.standing r.deviceId = some x → x.quarantine = none) :
    RetryStep c s i r now m ((s.pass now).setRetry i { r with point := .over })
  | refused {d : Device} (hpoint : r.point = .found d) :
    RetryStep c s i r now m (((s.at_ now).arm r.deviceId (now + c.retryBackoffMs) now).setRetry i
      { r with point := .over })
  | arms {d : Device} {nextRetryAt : Int} (hpoint : r.point = .claimed d (.arm nextRetryAt))
    (hdue : s.isDue r = true) :
    RetryStep c s i r now m (((s.at_ now).arm r.deviceId nextRetryAt now).setRetry i
      { r with point := .claimed d .end_ })
  | writes {d : Device} {w : RetryWrite} (writable : Bool) (hm : m = .write writable)
    (hpoint : r.point = .claimed d (.write w)) :
    RetryStep c s i r now m ((s.call c (w.call r.deviceId) now writable).setRetry i
      ⟨r.deviceId, .claimed d (if s.store.returns c.registry (w.call r.deviceId) now writable
        then w.next else .end_), s.turns⟩)

variable (now) in
theorem retry_step {i : Nat} {r : Retry} (hr : s.retries[i]? = some r) (m : RetryMove) :
    RetryStep c s i r now m (s.retry c i m now) := by
  unfold QuarantineHost.retry
  simp only [hr]
  split
  · rename_i hpoint
    split
    · rename_i d hd
      split
      · rename_i hq
        exact .finds hpoint hd hq
      · rename_i hq
        refine .leaves hpoint fun x hx => ?_
        obtain ⟨d', hd', -, rfl⟩ := standing_eq_some.mp hx
        obtain rfl := Option.some.inj (hd.symm.trans hd')
        exact quarantine_of_state hq
    · rename_i hd
      refine .leaves hpoint fun x hx => ?_
      obtain ⟨d', hd', -⟩ := standing_eq_some.mp hx
      rw [hd] at hd'
      cases hd'
  · rename_i d hpoint
    split
    · exact .refused hpoint
    · rename_i hfree
      exact .goes (.claims hpoint (by simpa using hfree))
  · rename_i d present hpoint
    exact .goes (.presence present hpoint)
  · rename_i d w writable hpoint
    exact .writes writable rfl hpoint
  · rename_i d nextRetryAt hpoint
    split
    · rename_i hdue
      exact .arms hpoint hdue
    · exact .stays
  · rename_i d hpoint
    split
    · rename_i hdue
      exact .goes (.ends hpoint hdue)
    · exact .stays
  · rename_i d stage answer hpoint
    split
    · rename_i stage' hafter
      exact .goes (.driver answer hpoint hafter)
    · exact .stays
  · exact .stays

/-! ### The retries keep the invariant -/

theorem due_not_overtaken {r x : Retry} {i : Nat} {d : Device} (hx : s.retries[i]? = some x)
    (hfound : x.point = .found d) (hdue : s.isDue r = true) : ¬ x.turn < r.turn := by
  have hall := List.all_eq_true.mp hdue x (List.mem_of_getElem? hx)
  simp only [hfound, RetryPoint.isFound, Bool.not_true, Bool.false_or, decide_eq_true_eq] at hall
  omega

/-- A retry that is replaced, with the registry as it was: the others are as they were, as long as
    one that has overtaken another stays. -/
theorem QuarantineOk.set (h : QuarantineOk c s) (hregistry : s'.store.registry = s.store.registry)
    (hstore : StoreOk s'.store) {i : Nat} {r r' : Retry} (hr : s.retries[i]? = some r)
    (hretries : s'.retries = s.retries.set i r') (hturns : s.turns ≤ s'.turns)
    (hid : r'.deviceId = r.deviceId) (hok : RetryOk c s' r')
    (hclaim : r'.point.holdsClaim = true →
      r.point.holdsClaim = true ∨ s.isClaimed r.deviceId = false)
    (hkeeps : ∀ d stage, r.point = .claimed d stage → stage.written = true →
      (r'.turn = r.turn ∧ ∃ d' stage', r'.point = .claimed d' stage' ∧ stage'.written = true) ∨
        s.isDue r = true) : QuarantineOk c s' := by
  have hout : RunsOutside s s' := .same hregistry
  have hget : ∀ j, s'.retries[j]? = if j = i then some r' else s.retries[j]? := by
    intro j
    rw [hretries]
    exact getElem?_set_if hr r' j
  refine ⟨hstore, hout.counted h.counted, ?_, ?_⟩
  · intro j x hx
    rw [hget] at hx
    split at hx
    · cases hx
      exact hok
    · rename_i hj
      have hold := h.retries j x hx
      have hmem := List.mem_of_getElem? hx
      unfold RetryOk at hold ⊢
      split
      · rename_i d hpoint
        rw [hpoint] at hold
        obtain ⟨hsnap, hturn, hcounts⟩ := hold
        refine ⟨hout.snapshot hmem hsnap, by omega, hcounts.imp (hout.countsFrom hsnap.nonneg) ?_⟩
        rintro ⟨k, y, d', stage, hk, hyid, hlt, hyp, hw⟩
        by_cases hki : k = i
        · rw [hki, hr] at hk
          cases hk
          rcases hkeeps d' stage hyp hw with ⟨hsame, d'', stage', hp', hw'⟩ | hdue
          · refine ⟨i, r', d'', stage', by rw [hget, if_pos rfl], hid.trans hyid, ?_, hp', hw'⟩
            rw [hsame]
            exact hlt
          · exact absurd hlt (due_not_overtaken hx hpoint hdue)
        · exact ⟨k, y, d', stage, by rw [hget, if_neg hki]; exact hk, hyid, hlt, hyp, hw⟩
      · rename_i d stage hpoint
        rw [hpoint] at hold
        obtain ⟨hsnap, hstage, hcounts⟩ := hold
        exact ⟨hout.snapshot hmem hsnap, hstage, fun hw => hout.countsFrom hsnap.nonneg (hcounts hw)⟩
      · trivial
  · intro j k x y hx hy hxc hyc hxy
    -- the retry that newly takes the claim is alone, for nobody held it
    have hfree : ∀ (m : Nat) (z : Retry), m ≠ i → s.retries[m]? = some z → z.point.holdsClaim = true →
        z.deviceId = r.deviceId → r'.point.holdsClaim = true → False := by
      intro m z hm hz hzc hzid hrc
      rcases hclaim hrc with hheld | hnone
      · exact hm (h.alone m i z r hz hr hzc hheld hzid)
      · simp only [QuarantineHost.isClaimed, Bool.or_eq_false_iff, List.any_eq_false] at hnone
        exact hnone.2 z (List.mem_of_getElem? hz) (by simp [hzid, hzc])
    rw [hget] at hx hy
    split at hx <;> split at hy
    · rename_i hj hk
      rw [hj, hk]
    · rename_i hj hk
      cases hx
      exact (hfree k y hk hy hyc (hxy.symm.trans hid) hxc).elim
    · rename_i hj hk
      cases hy
      exact (hfree j x hj hx hxc (hxy.trans hid) hyc).elim
    · exact h.alone j k x y hx hy hxc hyc hxy

theorem at_ok (h : StoreOk s.store) (hle : s.store.clock ≤ now) : StoreOk (s.at_ now).store :=
  ⟨h.ok.later hle, h.stored⟩

theorem arm_fields (s : QuarantineHost) (deviceId : String) (nextRetryAt now : Int) :
    (s.arm deviceId nextRetryAt now).store = s.store ∧
      (s.arm deviceId nextRetryAt now).retries = s.retries ∧
      (s.arm deviceId nextRetryAt now).turns = s.turns := by
  unfold QuarantineHost.arm
  split <;> exact ⟨rfl, rfl, rfl⟩

theorem arm_registry (s : QuarantineHost) (deviceId : String) (nextRetryAt now : Int) :
    ((s.at_ now).arm deviceId nextRetryAt now).store.registry = s.store.registry := by
  rw [(arm_fields ..).1]
  rfl

theorem retryFailed_ok {d : Device} {attempts : Int} (hattempts : attempts = d.attempts + 1) :
    StageOk c d (c.retryFailed d attempts now) := by
  unfold QuarantineOptions.retryFailed
  split
  · unfold QuarantineOptions.giveUp
    split
    · trivial
    · rename_i hphysical
      split
      · exact ⟨by simpa using hphysical, hattempts⟩
      · trivial
  · rename_i hunder
    exact ⟨by omega, .inr hattempts⟩

theorem begin_ok (c : QuarantineOptions) (d : Device) : StageOk c d (c.begin_ d) := by
  unfold QuarantineOptions.begin_
  split
  · rename_i hphysical
    exact hphysical
  · rename_i hphysical
    split
    · rename_i hdriver
      exact ⟨by simpa using hphysical, rfl, by simpa using hdriver⟩
    · trivial

theorem afterPresence_ok {d : Device} (hphysical : d.isPhysical = true)
    (hbelow : d.attempts < c.maxRetries) (present : Bool) :
    StageOk c d (c.afterPresence d present now) := by
  unfold QuarantineOptions.afterPresence
  split
  · exact ⟨hphysical, rfl⟩
  · exact ⟨hbelow, .inl rfl⟩

theorem afterDriver_ok {d : Device} {answer : Option DeviceState} {stage stage' : RetryStage}
    (hstage : StageOk c d stage) (h : c.afterDriver d answer now stage = some stage') :
    StageOk c d stage' ∧ stage.written = false := by
  cases stage with
  | reclaim attempts =>
    cases answer with
    | some target =>
      cases h
      exact ⟨trivial, rfl⟩
    | none =>
      cases h
      exact ⟨retryFailed_ok hstage.2, rfl⟩
  | destroy attempts =>
    cases answer with
    | some target =>
      cases h
      exact ⟨trivial, rfl⟩
    | none =>
      cases h
      exact ⟨retryFailed_ok hstage.2.1, rfl⟩
  | lastDestroy attempts =>
    cases answer with
    | some target =>
      cases h
      exact ⟨trivial, rfl⟩
    | none =>
      cases h
      exact ⟨hstage, rfl⟩
  | _ => cases h

/-- A step without a section keeps what the retry counts from. -/
theorem Goes.ok {r : Retry} {x : RetryPoint} (hgoes : Goes c s r now x) (hr : r ∈ s.retries)
    (hok : RetryOk c s r) (hregistry : s'.store.registry = s.store.registry) :
    RetryOk c s' { r with point := x } := by
  have hout : RunsOutside s s' := .same hregistry
  -- a stage only looks at the registry
  have hstays : ∀ {d : Device} {stage : RetryStage}, SnapshotOk c s r.deviceId d →
      StageOk c d stage → s.CountsFrom r.deviceId d →
      RetryOk c s' { r with point := .claimed d stage } := by
    intro d stage hsnap hstage hcounts
    have hsnap' := hout.snapshot hr hsnap
    exact ⟨hsnap', hstage, fun _ => hout.countsFrom hsnap.nonneg hcounts⟩
  cases hgoes with
  | @claims d hpoint hfree =>
    rw [RetryOk, hpoint] at hok
    obtain ⟨hsnap, -, hcounts⟩ := hok
    refine hstays hsnap (begin_ok c d) (hcounts.resolve_right ?_)
    rintro ⟨j, r', d', stage, hj, hid, -, hp, -⟩
    simp only [QuarantineHost.isClaimed, Bool.or_eq_false_iff, List.any_eq_false] at hfree
    exact hfree.2 r' (List.mem_of_getElem? hj) (by simp [hid, hp, RetryPoint.holdsClaim])
  | @presence d present hpoint =>
    rw [RetryOk, hpoint] at hok
    obtain ⟨hsnap, hphysical, hcounts⟩ := hok
    exact hstays hsnap (afterPresence_ok hphysical (hsnap.below hphysical) present) (hcounts rfl)
  | @driver d stage stage' answer hpoint hafter =>
    rw [RetryOk, hpoint] at hok
    obtain ⟨hsnap, hstage, hcounts⟩ := hok
    obtain ⟨hstage', hwritten⟩ := afterDriver_ok hstage hafter
    exact hstays hsnap hstage' (hcounts hwritten)
  | ends hpoint hdue => trivial

theorem Goes.claim {r : Retry} {x : RetryPoint} (hgoes : Goes c s r now x)
    (hx : x.holdsClaim = true) : r.point.holdsClaim = true ∨ s.isClaimed r.deviceId = false := by
  cases hgoes with
  | claims hpoint hfree => exact .inr hfree
  | presence present hpoint => exact .inl (by rw [hpoint]; rfl)
  | driver answer hpoint hafter => exact .inl (by rw [hpoint]; rfl)
  | ends hpoint hdue => cases hx

theorem Goes.keeps {r : Retry} {x : RetryPoint} (hgoes : Goes c s r now x) {d : Device}
    {stage : RetryStage} (hpoint : r.point = .claimed d stage) (hw : stage.written = true) :
    s.isDue r = true := by
  cases hgoes with
  | claims hp hfree =>
    rw [hp] at hpoint
    cases hpoint
  | presence present hp =>
    rw [hp] at hpoint
    cases hpoint
    cases hw
  | driver answer hp hafter =>
    rw [hp] at hpoint
    cases hpoint
    cases stage with
    | arm nextRetryAt => cases hafter
    | end_ => cases hafter
    | _ => cases hw
  | ends hp hdue => exact hdue

/-- The quarantine a write leaves. -/
def RetryWrite.leaves : RetryWrite → Option Quarantine
  | .failure attempts nextRetryAt => some ⟨attempts, some nextRetryAt⟩
  | .stranded attempts => some ⟨attempts, none⟩
  | _ => none

theorem RetryWrite.quarantine (w : RetryWrite) (o : RegistryOptions) (r : Registry) (now : Int)
    (deviceId : String) :
    OneQuarantine r deviceId (· ≠ none) w.leaves (r.call o now (w.call deviceId)) := by
  cases w with
  | failure attempts nextRetryAt => exact recordQuarantineRetryFailure_quarantine attempts nextRetryAt
  | recovered target => exact recoverFromQuarantine_quarantine target
  | deleted => exact deleteQuarantined_quarantine
  | stranded attempts => exact strandQuarantine_quarantine attempts
  | abandoned attempts => exact deleteQuarantined_quarantine

theorem RetryWrite.fits (w : RetryWrite) (r : Registry) (deviceId : String) :
    (w.call deviceId).Fits r := by
  cases w <;> trivial

variable (deviceId) in
/-- A write throws and leaves the registry, or leaves the device in the quarantine it writes. -/
theorem write_writes (writable : Bool) (h : StoreOk s.store) (w : RetryWrite)
    (hle : s.store.clock ≤ now) :
    (s.store.attempted c.registry (w.call deviceId) now writable).registry = s.store.registry ∧
        s.store.returns c.registry (w.call deviceId) now writable = false ∨
      ∃ draft, WritesQuarantine s.store.registry c.registry now draft deviceId (· ≠ none) w.leaves ∧
        (s.store.attempted c.registry (w.call deviceId) now writable).registry =
          Registry.commit c.registry now draft := by
  have hone := w.quarantine c.registry s.store.registry now deviceId
  obtain ⟨-, ⟨hsame, hnone⟩ | ⟨-, draft, hcall, hcommit⟩⟩ :=
    attempted_spec writable (o := c.registry) h hle (w.fits _ deviceId)
  · refine .inl ⟨hsame, Bool.eq_false_iff.mpr fun hreturns => ?_⟩
    rw [hnone hreturns] at hone
    obtain ⟨d, d', hdraft, -⟩ := hone
    cases hdraft
  · exact .inr ⟨draft, hone.writes h.ok.devicesOk hcall, hcommit⟩

/-- The write of a retry that holds the claim keeps the invariant. -/
theorem QuarantineOk.write (h : QuarantineOk c s) {i : Nat} {r : Retry} {d : Device}
    {w : RetryWrite} {stage' : RetryStage} {writable : Bool} (hle : s.store.clock ≤ now)
    (hr : s.retries[i]? = some r) (hpoint : r.point = .claimed d (.write w))
    (hwritten : stage'.written = true) (hstage' : StageOk c d stage') :
    QuarantineOk c ((s.call c (w.call r.deviceId) now writable).setRetry i
      ⟨r.deviceId, .claimed d stage', s.turns⟩) := by
  have hok := h.retries i r hr
  rw [RetryOk, hpoint] at hok
  obtain ⟨hsnap, hstage, hcounts⟩ := hok
  have hstore := attempted_ok _ writable (c := c) h.store hle (w.fits _ r.deviceId)
  -- what is written of the device, and that the others stay
  have hwrites : ∀ id x', (s.call c (w.call r.deviceId) now writable).store.registry.standing id =
      some x' → ∃ x, s.store.registry.standing id = some x ∧ (x' = x ∨
        id = r.deviceId ∧ x.quarantine ≠ none ∧ x' = { x with quarantine := w.leaves }) := by
    intro id x' hx'
    rcases write_writes r.deviceId writable (c := c) h.store w hle with
      ⟨hsame, -⟩ | ⟨draft, ⟨x, hx, hq, v, hcommitted, hv⟩, hcommit⟩
    · rw [QuarantineHost.call, hsame] at hx'
      exact ⟨x', hx', .inl rfl⟩
    · rw [QuarantineHost.call, hcommit, hcommitted] at hx'
      by_cases hid : id = r.deviceId
      · rw [hid, Function.update_self] at hx'
        exact ⟨x, hid ▸ hx, .inr ⟨hid, hq, hv x' hx'⟩⟩
      · rw [Function.update_of_ne hid] at hx'
        exact ⟨x', hx', .inl rfl⟩
  have hget : ∀ j, (s.retries.set i ⟨r.deviceId, .claimed d stage', s.turns⟩)[j]? =
      if j = i then some ⟨r.deviceId, .claimed d stage', s.turns⟩ else s.retries[j]? :=
    fun j => getElem?_set_if hr _ j
  have hsnapshot : ∀ (id : String) (d' : Device), SnapshotOk c s id d' →
      SnapshotOk c ((s.call c (w.call r.deviceId) now writable).setRetry i
        ⟨r.deviceId, .claimed d stage', s.turns⟩) id d' := by
    intro id d' hsnap'
    refine ⟨hsnap'.nonneg, hsnap'.below, fun x' hx' => ?_⟩
    obtain ⟨x, hx, rfl | ⟨-, -, rfl⟩⟩ := hwrites id x' hx'
    · exact hsnap'.same x' hx
    · exact hsnap'.same x hx
  have hothers : ∀ (id : String) (d' : Device), id ≠ r.deviceId → s.CountsFrom id d' →
      QuarantineHost.CountsFrom ((s.call c (w.call r.deviceId) now writable).setRetry i
        ⟨r.deviceId, .claimed d stage', s.turns⟩) id d' := by
    intro id d' hne hcounts' x' q' hx' hq'
    obtain ⟨x, hx, rfl | ⟨hid, -⟩⟩ := hwrites id x' hx'
    · exact hcounts' x' q' hx hq'
    · exact absurd hid hne
  refine ⟨hstore, ?_, ?_, ?_⟩
  · intro id x' q' hx' hq'
    obtain ⟨x, hx, rfl | ⟨rfl, hq, rfl⟩⟩ := hwrites id x' hx'
    · exact h.counted id x' q' hx hq'
    · obtain ⟨hphysical, -⟩ := hsnap.same x hx
      have hnonneg := hsnap.nonneg
      cases w with
      | failure attempts nextRetryAt =>
        cases hq'
        obtain ⟨hlt, hattempts⟩ := hstage
        refine ⟨?_, fun _ => hlt, fun _ => by simp⟩
        change 0 ≤ attempts
        omega
      | stranded attempts =>
        cases hq'
        obtain ⟨hvirtual, hattempts⟩ := hstage
        refine ⟨?_, fun hne => absurd rfl hne, fun hp => ?_⟩
        · change 0 ≤ attempts
          omega
        · change x.isPhysical = true at hp
          rw [hphysical, hvirtual] at hp
          cases hp
      | _ => cases hq'
  · intro j y hy
    change (s.retries.set i ⟨r.deviceId, .claimed d stage', s.turns⟩)[j]? = some y at hy
    rw [hget] at hy
    split at hy
    · cases hy
      exact ⟨hsnapshot _ d hsnap, hstage', fun hw => by rw [hwritten] at hw; cases hw⟩
    · rename_i hj
      have hold := h.retries j y hy
      unfold RetryOk at hold ⊢
      split
      · rename_i d' hp
        rw [hp] at hold
        obtain ⟨hsnap', hturn, hcounts'⟩ := hold
        refine ⟨hsnapshot _ d' hsnap', Nat.lt_succ_of_lt hturn, ?_⟩
        by_cases hid : y.deviceId = r.deviceId
        · -- the write overtakes a retry that has read and not claimed yet
          exact .inr ⟨i, ⟨r.deviceId, .claimed d stage', s.turns⟩, d, stage',
            (hget i).trans (if_pos rfl), hid.symm, hturn, rfl, hwritten⟩
        · refine hcounts'.imp (hothers _ d' hid) ?_
          rintro ⟨k, z, d'', stage, hk, hzid, hlt, hzp, hzw⟩
          have hki : k ≠ i := by
            rintro rfl
            rw [hr] at hk
            cases hk
            exact hid hzid.symm
          exact ⟨k, z, d'', stage, (hget k).trans ((if_neg hki).trans hk), hzid, hlt, hzp, hzw⟩
      · rename_i d' stage hp
        rw [hp] at hold
        obtain ⟨hsnap', hstage'', hcounts'⟩ := hold
        refine ⟨hsnapshot _ d' hsnap', hstage'', fun hw => hothers _ d' ?_ (hcounts' hw)⟩
        intro hid
        exact hj (h.alone j i y r hy hr (by rw [hp]; rfl) (by rw [hpoint]; rfl) hid)
      · trivial
  · intro j k y z hy hz hyc hzc hyz
    change (s.retries.set i ⟨r.deviceId, .claimed d stage', s.turns⟩)[j]? = some y at hy
    change (s.retries.set i ⟨r.deviceId, .claimed d stage', s.turns⟩)[k]? = some z at hz
    have hheld : r.point.holdsClaim = true := by rw [hpoint]; rfl
    rw [hget] at hy hz
    split at hy <;> split at hz
    · rename_i hj hk
      rw [hj, hk]
    · rename_i hj hk
      cases hy
      exact absurd (h.alone i k r z hr hz hheld hzc hyz) fun he => hk he.symm
    · rename_i hj hk
      cases hz
      exact absurd (h.alone j i y r hy hr hyc hheld hyz) hj
    · exact h.alone j k y z hy hz hyc hzc hyz

theorem next_written (c : QuarantineOptions) (d : Device) (w : RetryWrite) (returns : Bool) :
    (if returns then w.next else .end_).written = true ∧
      StageOk c d (if returns then w.next else .end_) := by
  cases returns
  · exact ⟨rfl, trivial⟩
  · cases w <;> exact ⟨rfl, trivial⟩

/-- A retry that is over, or that waits at its end, asks nothing of the registry. -/
theorem QuarantineOk.over (h : QuarantineOk c s) (hregistry : s'.store.registry = s.store.registry)
    (hstore : StoreOk s'.store) {i : Nat} {r : Retry} (hr : s.retries[i]? = some r)
    (hretries : s'.retries = s.retries.set i { r with point := .over }) (hturns : s.turns ≤ s'.turns)
    (hclaim : r.point.holdsClaim = false) : QuarantineOk c s' := by
  refine h.set hregistry hstore hr hretries hturns rfl trivial (fun hc => by cases hc) ?_
  intro d stage hpoint
  rw [hpoint] at hclaim
  cases hclaim

/-- A step of a retry keeps the invariant. -/
theorem QuarantineOk.retryStep (h : QuarantineOk c s) {i : Nat} {r : Retry}
    (hle : s.store.clock ≤ now) (hr : s.retries[i]? = some r) {m : RetryMove} (hstep : RetryStep c s i r now m s') :
    QuarantineOk c s' := by
  have hok := h.retries i r hr
  have hmem := List.mem_of_getElem? hr
  have hat := at_ok h.store hle
  cases hstep with
  | stays => exact h.outside hat (.same rfl) rfl (Nat.le_refl _)
  | goes hgoes =>
    exact h.set rfl hat hr rfl (Nat.le_refl _) rfl (hgoes.ok hmem hok rfl) hgoes.claim
      fun d stage hp hw => .inr (hgoes.keeps hp hw)
  | @finds d hpoint hd hq =>
    have hstanding := standing_quarantined hd hq
    have hcounted := h.counted r.deviceId _ _ hstanding rfl
    have hread : ∀ x q, s.store.registry.standing r.deviceId = some x → x.quarantine = some q →
        q.attempts ≤ d.attempts := by
      intro x q hx hxq
      rw [hstanding] at hx
      cases hx
      cases hxq
      exact Int.le_refl _
    refine h.set rfl hat hr rfl (Nat.le_succ _) rfl ⟨⟨hcounted.nonneg, fun hp => ?_, ?_⟩,
      Nat.lt_succ_self _, .inl hread⟩ (fun hc => by cases hc) (fun d' stage hp => ?_)
    · exact hcounted.below (hcounted.physical hp)
    · intro x hx
      change s.store.registry.standing r.deviceId = some x at hx
      rw [hstanding] at hx
      cases hx
      exact ⟨rfl, rfl⟩
    · rw [hpoint] at hp
      cases hp
  | leaves hpoint hnone => exact h.over rfl hat hr rfl (Nat.le_succ _) (by rw [hpoint]; rfl)
  | refused hpoint =>
    obtain ⟨hstore, hretries, hturns⟩ :=
      arm_fields (s.at_ now) r.deviceId (now + c.retryBackoffMs) now
    refine h.over (arm_registry ..) ?_ hr ?_ ?_ (by rw [hpoint]; rfl)
    · exact hstore ▸ hat
    · exact congrArg (List.set · i _) hretries
    · exact Nat.le_of_eq hturns.symm
  | @arms d nextRetryAt hpoint hdue =>
    obtain ⟨hstore, hretries, hturns⟩ := arm_fields (s.at_ now) r.deviceId nextRetryAt now
    rw [RetryOk, hpoint] at hok
    have hsnap := (RunsOutside.same (arm_registry s r.deviceId nextRetryAt now)).snapshot hmem hok.1
    exact h.set (arm_registry ..) (hstore ▸ hat) hr (congrArg (List.set · i _) hretries)
      (Nat.le_of_eq hturns.symm) rfl
      ⟨⟨hsnap.nonneg, hsnap.below, hsnap.same⟩, trivial, fun hw => by cases hw⟩
      (fun _ => .inl (by rw [hpoint]; rfl)) (fun _ _ _ _ => .inr hdue)
  | @writes d w writable hm hpoint =>
    obtain ⟨hwritten, hstage⟩ := next_written c d w
      (s.store.returns c.registry (w.call r.deviceId) now writable)
    exact h.write hle hr hpoint hwritten hstage

/-! ### Every step keeps the invariant -/

theorem restoreDevice_fields (platforms : List Platform) (now : Int) (s : QuarantineHost)
    (d : Device) : (s.restoreDevice platforms now d).store = s.store ∧
      (s.restoreDevice platforms now d).retries = s.retries ∧
      (s.restoreDevice platforms now d).turns = s.turns := by
  unfold QuarantineHost.restoreDevice
  split
  · exact arm_fields s d.id _ now
  · exact ⟨rfl, rfl, rfl⟩

theorem restoreDevices_fields (platforms : List Platform) (now : Int) (ds : List Device)
    (s : QuarantineHost) :
    (ds.foldl (QuarantineHost.restoreDevice platforms now) s).store = s.store ∧
      (ds.foldl (QuarantineHost.restoreDevice platforms now) s).retries = s.retries ∧
      (ds.foldl (QuarantineHost.restoreDevice platforms now) s).turns = s.turns := by
  induction ds generalizing s with
  | nil => exact ⟨rfl, rfl, rfl⟩
  | cons d ds ih =>
    obtain ⟨hstore, hretries, hturns⟩ := ih (s.restoreDevice platforms now d)
    obtain ⟨hstore', hretries', hturns'⟩ := restoreDevice_fields platforms now s d
    exact ⟨hstore.trans hstore', hretries.trans hretries', hturns.trans hturns'⟩

theorem QuarantineOk.start {store : Store} (h : StoreOk store)
    (hcounted : ∀ deviceId x q, store.registry.standing deviceId = some x →
      x.quarantine = some q → Counted c x q) : QuarantineOk c (QuarantineHost.start store) := by
  refine ⟨h, hcounted, ?_, ?_⟩
  · intro i r hr
    cases hr
  · intro i j r r' hr
    cases hr

/-- What a restart opens is what stood before. -/
theorem reopen_standing (h : StoreOk s.store) (hle : s.store.clock ≤ now) (deviceId : String) :
    (s.store.step c.registry (.reopen now)).registry.standing deviceId =
      s.store.registry.standing deviceId := by
  obtain ⟨r', db', hload, hopened⟩ := load_opens (o := c.registry) h.ok h.stored hle
  simp only [Store.step, hload]
  exact congrFun (Opened.shown shows_standing h.ok hopened) deviceId

/-- A timer that fires starts a retry that has read nothing yet. -/
theorem QuarantineOk.fire (h : QuarantineOk c s) (hle : s.store.clock ≤ now) :
    QuarantineOk c (s.fire deviceId now) := by
  have hat := h.outside (at_ok h.store hle) (.same rfl) rfl (Nat.le_refl _)
  unfold QuarantineHost.fire
  split
  · exact hat
  · split
    · exact hat
    · have hget : ∀ (i : Nat) (r : Retry), (s.retries ++ [⟨deviceId, .reading, 0⟩])[i]? = some r →
          s.retries[i]? = some r ∨ r.point = .reading := by
        intro i r hr
        rw [getElem?_append_one] at hr
        split at hr
        · cases hr
          exact .inr rfl
        · exact .inl hr
      refine ⟨hat.store, hat.counted, ?_, ?_⟩
      · intro i r hr
        rcases hget i r hr with hold | hpoint
        · have hok := hat.retries i r hold
          unfold RetryOk at hok ⊢
          split
          · rename_i d hpoint
            rw [hpoint] at hok
            obtain ⟨⟨hnonneg, hbelow, hsame⟩, hturn, hcounts⟩ := hok
            refine ⟨⟨hnonneg, hbelow, hsame⟩, hturn, hcounts.imp id ?_⟩
            rintro ⟨j, x, d', stage, hj, hrest⟩
            exact ⟨j, x, d', stage, List.getElem?_append_left (List.getElem?_eq_some_iff.mp hj).1 ▸ hj,
              hrest⟩
          · rename_i d stage hpoint
            rw [hpoint] at hok
            obtain ⟨⟨hnonneg, hbelow, hsame⟩, hstage, hcounts⟩ := hok
            exact ⟨⟨hnonneg, hbelow, hsame⟩, hstage, hcounts⟩
          · trivial
        · rw [RetryOk, hpoint]
          trivial
      · intro i j r r' hr hr' hrc hrc' hid
        rcases hget i r hr with hold | hpoint
        · rcases hget j r' hr' with hold' | hpoint'
          · exact hat.alone i j r r' hold hold' hrc hrc' hid
          · rw [hpoint'] at hrc'
            cases hrc'
        · rw [hpoint] at hrc
          cases hrc

theorem QuarantineOk.step (h : QuarantineOk c s) {a : Int × QuarantineAction}
    (hadmits : c.Admits s a) : QuarantineOk c (s.step c a) := by
  obtain ⟨now, a⟩ := a
  cases a with
  | section_ w writable =>
    simp only [QuarantineHost.step]
    split
    · exact h.outside (attempted_ok _ _ h.store hadmits.1.1 hadmits.1.2.1)
        (section_outside h.store hadmits) rfl (Nat.le_succ _)
    · exact h.outside (at_ok h.store hadmits.1.1) (.same rfl) rfl (Nat.le_succ _)
  | enter deviceId cause calledAt writable => exact h.enter hadmits
  | enterFromStalledTransition deviceId findingState calledAt writable =>
    simp only [QuarantineHost.step, QuarantineHost.enterFromStalledTransition]
    split
    · exact h.enter hadmits
    · exact h.outside (at_ok h.store hadmits) (.same rfl) rfl (Nat.le_succ _)
  | armEntered i =>
    simp only [QuarantineHost.step, QuarantineHost.armEntered]
    split
    · exact h.outside (at_ok h.store hadmits) (.same rfl) rfl (Nat.le_refl _)
    · rename_i deviceId nextRetryAt hentered
      obtain ⟨hstore, hretries, hturns⟩ := arm_fields (s.at_ now) deviceId nextRetryAt now
      refine h.outside ?_ (.same (arm_registry ..)) hretries (Nat.le_of_eq hturns.symm)
      change StoreOk ((s.at_ now).arm deviceId nextRetryAt now).store
      exact hstore ▸ at_ok h.store hadmits
  | fire deviceId => exact h.fire hadmits
  | retry i m =>
    simp only [QuarantineHost.step]
    cases hr : s.retries[i]? with
    | none =>
      simp only [QuarantineHost.retry, hr]
      exact h.outside (at_ok h.store hadmits) (.same rfl) rfl (Nat.le_refl _)
    | some r => exact h.retryStep hadmits hr (retry_step _ hr m)
  | claim deviceId =>
    simp only [QuarantineHost.step]
    split <;> exact h.outside (at_ok h.store hadmits) (.same rfl) rfl (Nat.le_refl _)
  | release deviceId => exact h.outside (at_ok h.store hadmits) (.same rfl) rfl (Nat.le_refl _)
  | restore platforms =>
    simp only [QuarantineHost.step]
    split
    · exact h.outside (at_ok h.store hadmits.1) (.same rfl) rfl (Nat.le_refl _)
    · obtain ⟨hstore, hretries, hturns⟩ := restoreDevices_fields platforms now
        s.store.registry.devices { s.at_ now with readable := some platforms }
      have hregistry := congrArg Store.registry hstore
      refine h.outside ?_ (.same hregistry) hretries (Nat.le_of_eq hturns.symm)
      exact hstore.symm ▸ at_ok h.store hadmits.1
  | dispose => exact h.outside (at_ok h.store hadmits) (.same rfl) rfl (Nat.le_refl _)
  | restart =>
    refine QuarantineOk.start (h.store.step (a := .reopen now) hadmits) fun deviceId x q hx => ?_
    rw [reopen_standing h.store hadmits] at hx
    exact h.counted deviceId x q hx

end Steps

end Simlock.Worker
