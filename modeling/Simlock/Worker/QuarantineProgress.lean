import Simlock.Worker.QuarantineRetries

/-! Quarantine never stalls, as long as its writes are taken.

    A retry leaves its device unattended at one place only: a write that throws. When the disk takes
    every write of a device that is still quarantined, each retry ends with the next one armed, or
    with the device out of quarantine or stranded. Each failed attempt is counted by the record or by
    the retry that is about to write it, so no more than `maxRetries` can fail.

    The last section shows the throw: the disk refuses one write, and the device stays quarantined
    with no timer and no retry. -/

namespace Simlock.Worker

open Simlock.Lib Simlock.Core

section Progress

variable {c : QuarantineOptions} {s s' : QuarantineHost} {now : Int} {deviceId : String}

/-! ### A write that is taken -/

theorem RetryWrite.retires (w : RetryWrite) (deviceId : String)
    (hready : ∀ target, w = .recovered target → target = .ready) :
    (w.call deviceId).Retires deviceId := by
  cases w with
  | recovered target => exact ⟨rfl, hready target rfl⟩
  | _ => rfl

variable (now) in
/-- A write of a quarantined device that the disk takes goes through. -/
theorem write_taken (h : StoreOk s.store) (w : RetryWrite) (hle : s.store.clock ≤ now) {x : Standing}
    (hx : s.store.registry.standing deviceId = some x) (hq : x.quarantine ≠ none)
    (hready : ∀ target, w = .recovered target → target = .ready) :
    (∃ v, (s.store.attempted c.registry (w.call deviceId) now true).registry.standing =
        Function.update s.store.registry.standing deviceId v ∧
      ∀ x', v = some x' → x' = { x with quarantine := w.leaves }) ∧
      (w.leaves.any (fun q => q.nextRetryAt.isSome) = true →
        s.store.returns c.registry (w.call deviceId) now true = true) := by
  obtain ⟨d', hcall, hown⟩ := retires_call now (o := c.registry) (w.retires deviceId hready)
    hx hq fun d hd => h.stored.devices.not_foreign hd
  obtain ⟨hcommit, hreturns⟩ := attempted_commits h hle (w.fits _ deviceId) hcall hown
  obtain ⟨x₀, hx₀, -, v, hcommitted, hv⟩ :=
    (w.quarantine c.registry s.store.registry now deviceId).writes h.ok.devicesOk hcall
  rw [hx] at hx₀
  cases hx₀
  refine ⟨⟨v, by rw [hcommit, hcommitted], hv⟩, fun hleaves => hreturns ?_⟩
  cases w with
  | failure attempts nextRetryAt => rfl
  | _ => cases hleaves

/-- What stands after a write: the device as it was, or one that was quarantined. -/
theorem write_standing (h : StoreOk s.store) (w : RetryWrite) {writable : Bool} {id : String}
    (hle : s.store.clock ≤ now) {x' : Standing}
    (hx' : (s.store.attempted c.registry (w.call deviceId) now writable).registry.standing id =
      some x') :
    ∃ x, s.store.registry.standing id = some x ∧
      (id ≠ deviceId ∧ x' = x ∨ id = deviceId ∧ (x.quarantine ≠ none ∨ x' = x)) := by
  rcases write_writes deviceId writable (c := c) h w hle with
    ⟨hsame, -⟩ | ⟨draft, ⟨x, hx, hq, v, hcommitted, hv⟩, hcommit⟩
  · rw [hsame] at hx'
    refine ⟨x', hx', ?_⟩
    by_cases hid : id = deviceId
    · exact .inr ⟨hid, .inr rfl⟩
    · exact .inl ⟨hid, rfl⟩
  · rw [hcommit, hcommitted] at hx'
    by_cases hid : id = deviceId
    · exact ⟨x, hid ▸ hx, .inr ⟨hid, .inl hq⟩⟩
    · rw [Function.update_of_ne hid] at hx'
      exact ⟨x', hx', .inl ⟨hid, rfl⟩⟩

/-! ### A device is attended -/

theorem QuarantineHost.Attended.mono (h : s.Attended deviceId)
    (htimers : (s.timers deviceId).isSome → (s'.timers deviceId).isSome)
    (hretries : ∀ r ∈ s.retries, r.deviceId = deviceId → r.point.inFlight = true →
      ∃ r' ∈ s'.retries, r'.deviceId = deviceId ∧ r'.point.inFlight = true)
    (hentered : ∀ e ∈ s.entered, e.1 = deviceId → ∃ e' ∈ s'.entered, e'.1 = deviceId) :
    s'.Attended deviceId := by
  rcases h with htimer | ⟨r, hr, hid, hflight⟩ | ⟨e, he, hid⟩
  · exact .inl (htimers htimer)
  · exact .inr (.inl (hretries r hr hid hflight))
  · exact .inr (.inr (hentered e he hid))

/-- A step that leaves timers, retries and entries alone leaves the device attended. -/
theorem QuarantineHost.Attended.same (h : s.Attended deviceId) (htimers : s'.timers = s.timers)
    (hretries : s'.retries = s.retries) (hentered : s'.entered = s.entered) :
    s'.Attended deviceId := by
  refine QuarantineHost.Attended.mono h ?_ ?_ ?_
  · rw [htimers]
    exact id
  · rw [hretries]
    exact fun r hr hid hflight => ⟨r, hr, hid, hflight⟩
  · rw [hentered]
    exact fun e he hid => ⟨e, he, hid⟩

theorem arm_entered (s : QuarantineHost) (deviceId : String) (nextRetryAt now : Int) :
    (s.arm deviceId nextRetryAt now).entered = s.entered ∧
      (s.arm deviceId nextRetryAt now).readable = s.readable ∧
      (s.arm deviceId nextRetryAt now).disposed = s.disposed := by
  unfold QuarantineHost.arm
  split <;> exact ⟨rfl, rfl, rfl⟩

theorem arm_timers (s : QuarantineHost) (deviceId : String) (nextRetryAt now : Int)
    (hlive : s.disposed = false) :
    ((s.arm deviceId nextRetryAt now).timers deviceId).isSome = true ∧
      ∀ id, (s.timers id).isSome → ((s.arm deviceId nextRetryAt now).timers id).isSome := by
  unfold QuarantineHost.arm
  rw [if_neg (by simp [hlive])]
  refine ⟨by simp, fun id hid => ?_⟩
  by_cases h : id = deviceId
  · simp [h]
  · simpa [Function.update_of_ne h] using hid

/-! ### Retries keep their devices attended -/

/-- The stages without a driver are of devices of other platforms. -/
theorem driverless {d : Device} {x : Standing} (hsnap : SnapshotOk c s deviceId d)
    (hx : s.store.registry.standing deviceId = some x) (hmem : x.platform ∈ c.drivers) :
    d.platform ∈ c.drivers := (hsnap.same x hx).2 ▸ hmem

theorem giveUp_inFlight {d : Device} {attempts : Int} (hmem : d.platform ∈ c.drivers)
    (r : Retry) :
    ({ r with point := .claimed d (c.giveUp d attempts) } : Retry).point.inFlight = true := by
  unfold QuarantineOptions.giveUp
  split
  · rfl
  · rw [if_pos (by simpa using hmem)]
    rfl

theorem retryFailed_inFlight {d : Device} {attempts : Int} (hmem : d.platform ∈ c.drivers)
    (r : Retry) :
    ({ r with point := .claimed d (c.retryFailed d attempts now) } : Retry).point.inFlight = true := by
  unfold QuarantineOptions.retryFailed
  split
  · exact giveUp_inFlight hmem r
  · rfl

/-- A retry in flight that goes on, on a platform with a driver, stays in flight. -/
theorem Goes.inFlight {r : Retry} {x : RetryPoint} (hgoes : Goes c s r now x)
    (hflight : r.point.inFlight = true)
    (hmem : ∀ d, (∃ stage, r.point = .claimed d stage) ∨ r.point = .found d → d.platform ∈ c.drivers) :
    x.inFlight = true := by
  cases hgoes with
  | @claims d hpoint hfree =>
    unfold QuarantineOptions.begin_
    split
    · rfl
    · rw [if_pos (by simpa using hmem d (.inr hpoint))]
      rfl
  | @presence d present hpoint =>
    unfold QuarantineOptions.afterPresence
    split <;> rfl
  | @driver d stage stage' answer hpoint hafter =>
    have hdriver := hmem d (.inl ⟨stage, hpoint⟩)
    cases stage with
    | reclaim attempts =>
      cases answer with
      | some target =>
        cases hafter
        rfl
      | none =>
        cases hafter
        exact retryFailed_inFlight hdriver r
    | destroy attempts =>
      cases answer with
      | some target =>
        cases hafter
        rfl
      | none =>
        cases hafter
        exact retryFailed_inFlight hdriver r
    | lastDestroy attempts =>
      cases answer with
      | some target =>
        cases hafter
        rfl
      | none =>
        cases hafter
        rfl
    | _ => cases hafter
  | ends hpoint hdue =>
    rw [hpoint] at hflight
    cases hflight

/-- A replaced retry leaves every device attended, if its own is by what replaces it. -/
theorem QuarantineHost.Watched.set (hw : s.Watched) {i : Nat} {r r' : Retry} (hr : s.retries[i]? = some r)
    (hregistry : s'.store.registry = s.store.registry) (hreadable : s'.readable = s.readable)
    (hdisposed : s'.disposed = s.disposed) (hentered : s'.entered = s.entered)
    (htimers : s.disposed = false → ∀ id, (s.timers id).isSome → (s'.timers id).isSome)
    (hretries : s'.retries = s.retries.set i r') (hid : r'.deviceId = r.deviceId)
    (hgoes : ∀ platforms x, s.readable = some platforms → s.disposed = false →
      s.store.registry.standing r.deviceId = some x → x.platform ∈ platforms →
      s.Pending r.deviceId → r.point.inFlight = true →
      r'.point.inFlight = true ∨ (s'.timers r.deviceId).isSome) : s'.Watched := by
  intro platforms hplatforms hlive id x hx hmem hpending
  rw [hregistry] at hx
  rw [hreadable] at hplatforms
  rw [hdisposed] at hlive
  have hold : s.Pending id := by
    obtain ⟨x', q', hx', hrest⟩ := hpending
    exact ⟨x', q', hregistry ▸ hx', hrest⟩
  have hin : ∀ (j : Nat) (y : Retry), (s.retries.set i r')[j]? = some y → y ∈ s'.retries :=
    fun j y hy => hretries ▸ List.mem_of_getElem? hy
  rcases hw platforms hplatforms hlive id x hx hmem hold with htimer | ⟨y, hy, hyid, hflight⟩ | hentry
  · exact .inl (htimers hlive id htimer)
  · obtain ⟨j, hj⟩ := List.mem_iff_getElem?.mp hy
    by_cases hji : j = i
    · rw [hji, hr] at hj
      cases hj
      subst hyid
      rcases hgoes platforms x hplatforms hlive hx hmem hold hflight with hflight' | htimer
      · refine .inr (.inl ⟨r', hin i r' (getElem?_set_of_getElem? hr), hid, hflight'⟩)
      · exact .inl htimer
    · refine .inr (.inl ⟨y, hin j y ?_, hyid, hflight⟩)
      rw [getElem?_set_if hr, if_neg hji]
      exact hj
  · exact .inr (.inr (hentered ▸ hentry))

theorem arms_of_point {r : Retry} {d : Device} (hok : RetryOk c s r)
    (h : (∃ stage, r.point = .claimed d stage) ∨ r.point = .found d) :
    SnapshotOk c s r.deviceId d := by
  rcases h with ⟨stage, hpoint⟩ | hpoint <;> rw [RetryOk, hpoint] at hok
  · exact hok.1
  · exact hok.1

/-- A step of a retry leaves every device attended, if its write is taken. -/
theorem QuarantineHost.Watched.retryStep (h : QuarantineOk c s) (hw : s.Watched)
    (hdrivers : ∀ platforms, s.readable = some platforms → ∀ p ∈ platforms, p ∈ c.drivers)
    {i : Nat} {r : Retry} {m : RetryMove} (hle : s.store.clock ≤ now) (hr : s.retries[i]? = some r)
    (hstep : RetryStep c s i r now m s')
    (htakes : ∀ writable, m = .write writable → ∀ d w, r.point = .claimed d (.write w) →
      ∀ x, s.store.registry.standing r.deviceId = some x → x.quarantine ≠ none →
        writable = true ∧ ∀ target, w = .recovered target → target = .ready) : s'.Watched := by
  have hok := h.retries i r hr
  cases hstep with
  | stays =>
    intro platforms hplatforms hlive id x hx hmem hpending
    exact QuarantineHost.Attended.same (hw platforms hplatforms hlive id x hx hmem hpending) rfl rfl rfl
  | @goes x hgoes =>
    refine hw.set hr rfl rfl rfl rfl (fun _ _ => id) rfl rfl ?_
    intro platforms y hplatforms hlive hy hmem hpending hflight
    refine .inl (hgoes.inFlight hflight fun d hd => ?_)
    exact driverless (arms_of_point hok hd) hy (hdrivers platforms hplatforms _ hmem)
  | finds hpoint hd hq =>
    exact hw.set hr rfl rfl rfl rfl (fun _ _ => id) rfl rfl fun _ _ _ _ _ _ _ _ => .inl rfl
  | leaves hpoint hnone =>
    refine hw.set hr rfl rfl rfl rfl (fun _ _ => id) rfl rfl ?_
    rintro platforms y hplatforms hlive hy hmem ⟨y', q', hy', hq', -⟩ hflight
    rw [hnone y' hy'] at hq'
    cases hq'
  | refused hpoint =>
    obtain ⟨-, hretries, -⟩ :=
      arm_fields (s.at_ now) r.deviceId (now + c.retryBackoffMs) now
    obtain ⟨hentered, hreadable, hdisposed⟩ :=
      arm_entered (s.at_ now) r.deviceId (now + c.retryBackoffMs) now
    change QuarantineHost.Watched
      (((s.at_ now).arm r.deviceId (now + c.retryBackoffMs) now).setRetry i _)
    refine hw.set hr
      (arm_registry ..) hreadable hdisposed hentered ?_
      (congrArg (List.set · i _) hretries) rfl ?_
    · intro hlive id hid
      exact (arm_timers (s.at_ now) r.deviceId _ now hlive).2 id hid
    · intro platforms y hplatforms hlive hy hmem hpending hflight
      exact .inr (arm_timers (s.at_ now) r.deviceId _ now hlive).1
  | @arms d nextRetryAt hpoint hdue =>
    obtain ⟨-, hretries, -⟩ := arm_fields (s.at_ now) r.deviceId nextRetryAt now
    obtain ⟨hentered, hreadable, hdisposed⟩ := arm_entered (s.at_ now) r.deviceId nextRetryAt now
    change QuarantineHost.Watched (((s.at_ now).arm r.deviceId nextRetryAt now).setRetry i _)
    refine hw.set hr
      (arm_registry ..) hreadable hdisposed hentered ?_
      (congrArg (List.set · i _) hretries) rfl ?_
    · intro hlive id hid
      exact (arm_timers (s.at_ now) r.deviceId _ now hlive).2 id hid
    · intro platforms y hplatforms hlive hy hmem hpending hflight
      exact .inr (arm_timers (s.at_ now) r.deviceId _ now hlive).1
  | @writes d w writable hm hpoint =>
    have hread := htakes writable hm d w hpoint
    rintro platforms hplatforms hlive id x' hx' hmem ⟨x'', q', hx'', hq', hnext⟩
    rw [hx'] at hx''
    cases hx''
    obtain ⟨x, hx, hwritten⟩ := write_standing h.store w hle hx'
    rcases hwritten with ⟨hid, rfl⟩ | ⟨rfl, hstood⟩
    · have hattended := hw platforms hplatforms hlive id x' hx hmem ⟨x', q', hx, hq', hnext⟩
      refine QuarantineHost.Attended.mono hattended (fun ht => ht) ?_ fun e he heid => ⟨e, he, heid⟩
      intro y hy hyid hflight
      obtain ⟨j, hj⟩ := List.mem_iff_getElem?.mp hy
      have hji : j ≠ i := by
        rintro rfl
        rw [hr] at hj
        cases hj
        exact hid hyid.symm
      refine ⟨y, List.mem_of_getElem? ((getElem?_set_if hr _ j).trans ((if_neg hji).trans hj)), hyid,
        hflight⟩
    · have hquarantined : x.quarantine ≠ none := by
        rcases hstood with hne | rfl
        · exact hne
        · rw [hq']
          simp
      -- the write was taken, so the device is as it wrote, and the retry arms the next one
      obtain ⟨rfl, hready⟩ := hread x hx hquarantined
      obtain ⟨⟨v, hcommitted, hv⟩, hreturns⟩ :=
        write_taken now (c := c) h.store w hle hx hquarantined hready
      have hleaves : w.leaves = some q' := by
        have hself : (s.store.attempted c.registry (w.call r.deviceId) now true).registry.standing
            r.deviceId = some x' := hx'
        rw [hcommitted, Function.update_self] at hself
        rw [hv x' hself] at hq'
        exact hq'
      have hsome : q'.nextRetryAt.isSome = true := Option.isSome_iff_ne_none.mpr hnext
      have hthrough := hreturns (by rw [hleaves]; exact hsome)
      refine .inr (.inl ⟨_, List.mem_of_getElem? (getElem?_set_of_getElem? hr), rfl, ?_⟩)
      rw [hthrough, if_pos rfl]
      cases w with
      | failure attempts nextRetryAt => rfl
      | stranded attempts =>
        cases hleaves
        cases hsome
      | _ => cases hleaves

theorem RetryStep.readable {i : Nat} {r : Retry} {m : RetryMove}
    (hstep : RetryStep c s i r now m s') : s'.readable = s.readable := by
  cases hstep with
  | refused hpoint => exact (arm_entered ..).2.1
  | arms hpoint hdue => exact (arm_entered ..).2.1
  | _ => rfl

/-! ### Every step keeps the devices attended -/

/-- The platforms the startup read listed have a driver. -/
def QuarantineHost.Driven (c : QuarantineOptions) (s : QuarantineHost) : Prop :=
  ∀ platforms, s.readable = some platforms → ∀ p ∈ platforms, p ∈ c.drivers

/-- A step outside the retries that begins no quarantine leaves every device attended. -/
theorem QuarantineHost.Watched.outside (hw : s.Watched) (hreadable : s'.readable = s.readable)
    (hdisposed : s'.disposed = s.disposed)
    (hstands : ∀ id x' q', s'.store.registry.standing id = some x' → x'.quarantine = some q' →
      ∃ x, s.store.registry.standing id = some x ∧ x.platform = x'.platform ∧
        x.quarantine = some q')
    (hattends : s.disposed = false → ∀ id, s.Attended id → s'.Attended id) : s'.Watched := by
  rintro platforms hplatforms hlive id x' hx' hmem ⟨x'', q', hx'', hq', hnext⟩
  rw [hx'] at hx''
  cases hx''
  obtain ⟨x, hx, hplatform, hq⟩ := hstands id x' q' hx' hq'
  rw [hreadable] at hplatforms
  rw [hdisposed] at hlive
  exact hattends hlive id (hw platforms hplatforms hlive id x hx (hplatform ▸ hmem)
    ⟨x, q', hx, hq, hnext⟩)

theorem stands_same (hregistry : s'.store.registry = s.store.registry) :
    ∀ id x' q', s'.store.registry.standing id = some x' → x'.quarantine = some q' →
      ∃ x, s.store.registry.standing id = some x ∧ x.platform = x'.platform ∧
        x.quarantine = some q' := by
  intro id x' q' hx' hq'
  rw [hregistry] at hx'
  exact ⟨x', hx', rfl, hq'⟩

theorem section_stands (h : StoreOk s.store) {w : Section} {writable : Bool}
    (hadmits : c.Admits s (now, .section_ w writable)) :
    ∀ id x' q', (s.call c w.call now writable).store.registry.standing id = some x' →
      x'.quarantine = some q' → ∃ x, s.store.registry.standing id = some x ∧
        x.platform = x'.platform ∧ x.quarantine = some q' := by
  intro id x' q' hx' hq'
  rcases section_rests h hadmits hx' with ⟨x, hx, hrests⟩ | ⟨-, hnone⟩
  · refine ⟨x, hx, hrests.platform.symm, ?_⟩
    rcases hrests.quarantine with hnone | hsame
    · rw [hnone] at hq'
      cases hq'
    · rw [← hsame]
      exact hq'
  · rw [hnone] at hq'
    cases hq'

variable (now) (deviceId) in
theorem enter_fields (s : QuarantineHost) (cause : QuarantineCause) (nextRetryAt : Int)
    (writable : Bool) :
    (s.enter c deviceId cause nextRetryAt now writable).store =
        s.store.attempted c.registry (.enterQuarantine deviceId nextRetryAt cause) now writable ∧
      (s.enter c deviceId cause nextRetryAt now writable).timers = s.timers ∧
      (s.enter c deviceId cause nextRetryAt now writable).readable = s.readable ∧
      (s.enter c deviceId cause nextRetryAt now writable).disposed = s.disposed ∧
      ∃ new, (s.enter c deviceId cause nextRetryAt now writable).entered = s.entered ++ new := by
  simp only [QuarantineHost.enter]
  split
  · exact ⟨rfl, rfl, rfl, rfl, _, rfl⟩
  · exact ⟨rfl, rfl, rfl, rfl, [], (List.append_nil _).symm⟩

/-- An entry's own device waits for its timer; the others are as they were. -/
theorem QuarantineHost.Watched.enter (h : StoreOk s.store) (hw : s.Watched) {cause : QuarantineCause}
    {nextRetryAt : Int} {writable : Bool} (hle : s.store.clock ≤ now) :
    (s.enter c deviceId cause nextRetryAt now writable).Watched := by
  obtain ⟨hstore, htimers, hreadable, hdisposed, new, hentered⟩ :=
    enter_fields now deviceId (c := c) s cause nextRetryAt writable
  obtain ⟨hretries, -⟩ := enter_retries now deviceId (c := c) (s := s) cause
    nextRetryAt writable
  have hkeeps : ∀ id, s.Attended id →
      (s.enter c deviceId cause nextRetryAt now writable).Attended id := by
    intro id hattended
    refine QuarantineHost.Attended.mono hattended (fun ht => htimers ▸ ht)
      (fun r hr hrid hflight => ⟨r, hretries ▸ hr, hrid, hflight⟩) fun e he heid => ⟨e, ?_, heid⟩
    rw [hentered]
    exact List.mem_append_left _ he
  rcases enter_writes deviceId cause nextRetryAt writable (c := c) h hle with
    hsame | ⟨hreturns, draft, ⟨x, hx, hnone, v, hcommitted, hv⟩,
      hcommit⟩
  · exact hw.outside hreadable hdisposed (stands_same (by rw [hstore, hsame])) fun _ => hkeeps
  · rintro platforms hplatforms hlive id x' hx' hmem ⟨x'', q', hx'', hq', hnext⟩
    rw [hx'] at hx''
    cases hx''
    by_cases hid : id = deviceId
    · refine .inr (.inr ⟨(deviceId, nextRetryAt), ?_, hid.symm⟩)
      simp only [QuarantineHost.enter]
      rw [if_pos hreturns]
      exact List.mem_append_right _ List.mem_cons_self
    · rw [hstore, hcommit, hcommitted, Function.update_of_ne hid] at hx'
      exact hkeeps id (hw platforms (hreadable ▸ hplatforms) (hdisposed ▸ hlive) id x' hx' hmem
        ⟨x', q', hx', hq', hnext⟩)

/-- The timer of an entry, once it is armed, attends its device. -/
theorem attended_armEntered {i : Nat} {entry : String × Int} (hentry : s.entered[i]? = some entry)
    (hlive : s.disposed = false) {id : String} (h : s.Attended id) :
    QuarantineHost.Attended { (s.at_ now).arm entry.1 entry.2 now with
      entered := s.entered.eraseIdx i } id := by
  obtain ⟨hown, hothers⟩ := arm_timers (s.at_ now) entry.1 entry.2 now hlive
  obtain ⟨-, hretries, -⟩ := arm_fields (s.at_ now) entry.1 entry.2 now
  rcases h with htimer | ⟨r, hr, hid, hflight⟩ | ⟨e, he, hid⟩
  · exact .inl (hothers id htimer)
  · exact .inr (.inl ⟨r, hretries.symm ▸ hr, hid, hflight⟩)
  · by_cases hsame : entry.1 = id
    · subst hsame
      exact .inl hown
    · obtain ⟨j, hj⟩ := List.mem_iff_getElem?.mp he
      refine .inr (.inr ⟨e, ?_, hid⟩)
      have hji : j ≠ i := by
        rintro rfl
        rw [hentry] at hj
        cases hj
        exact hsame hid
      exact mem_eraseIdx_of_ne hj hji

theorem attended_fire {id : String} (h : s.Attended id) :
    QuarantineHost.Attended { s.at_ now with
      timers := Function.update s.timers deviceId none
      retries := s.retries ++ [⟨deviceId, .reading, 0⟩] } id := by
  by_cases hid : id = deviceId
  · exact .inr (.inl ⟨⟨deviceId, .reading, 0⟩, List.mem_append_right _ List.mem_cons_self, hid.symm,
      rfl⟩)
  · refine QuarantineHost.Attended.mono h (fun ht => ?_)
      (fun r hr hrid hflight => ⟨r, List.mem_append_left _ hr, hrid, hflight⟩)
      fun e he heid => ⟨e, he, heid⟩
    change (Function.update s.timers deviceId none id).isSome = true
    rw [Function.update_of_ne hid]
    exact ht

/-! ### The startup read -/

theorem restoreDevices_flags (platforms : List Platform) (now : Int) (ds : List Device)
    (s : QuarantineHost) :
    (ds.foldl (QuarantineHost.restoreDevice platforms now) s).readable = s.readable ∧
      (ds.foldl (QuarantineHost.restoreDevice platforms now) s).disposed = s.disposed := by
  induction ds generalizing s with
  | nil => exact ⟨rfl, rfl⟩
  | cons d ds ih =>
    obtain ⟨hreadable, hdisposed⟩ := ih (s.restoreDevice platforms now d)
    have hstep : (s.restoreDevice platforms now d).readable = s.readable ∧
        (s.restoreDevice platforms now d).disposed = s.disposed := by
      unfold QuarantineHost.restoreDevice
      split
      · exact (arm_entered s d.id _ now).2
      · exact ⟨rfl, rfl⟩
    exact ⟨hreadable.trans hstep.1, hdisposed.trans hstep.2⟩

theorem restoreDevices_timers (platforms : List Platform) (now : Int) (ds : List Device)
    (s : QuarantineHost) (hlive : s.disposed = false) :
    (∀ id, (s.timers id).isSome →
        ((ds.foldl (QuarantineHost.restoreDevice platforms now) s).timers id).isSome) ∧
      ∀ d ∈ ds, d.state = .quarantined → d.platform ∈ platforms →
        ((ds.foldl (QuarantineHost.restoreDevice platforms now) s).timers d.id).isSome := by
  induction ds generalizing s with
  | nil => exact ⟨fun _ ht => ht, fun d hd => by cases hd⟩
  | cons d ds ih =>
    have hstep : (s.restoreDevice platforms now d).disposed = false ∧
        (∀ id, (s.timers id).isSome → ((s.restoreDevice platforms now d).timers id).isSome) ∧
        (d.state = .quarantined → d.platform ∈ platforms →
          ((s.restoreDevice platforms now d).timers d.id).isSome) := by
      unfold QuarantineHost.restoreDevice
      split
      · obtain ⟨hown, hothers⟩ :=
          arm_timers s d.id (d.fields.quarantineNextRetryAt.getD now) now hlive
        exact ⟨(arm_entered ..).2.2.trans hlive, hothers, fun _ _ => hown⟩
      · rename_i hnot
        refine ⟨hlive, fun _ ht => ht, fun hq hmem => absurd ?_ hnot⟩
        simp [hq, hmem]
    obtain ⟨hothers, hall⟩ := ih (s.restoreDevice platforms now d) hstep.1
    refine ⟨fun id ht => hothers id (hstep.2.1 id ht), fun x hx hq hmem => ?_⟩
    rcases List.mem_cons.mp hx with rfl | hx
    · exact hothers _ (hstep.2.2 hq hmem)
    · exact hall x hx hq hmem

/-- The startup read arms a timer for every quarantined device it lists. -/
theorem watched_restore (platforms : List Platform) (now : Int) :
    (s.restore platforms now).Watched := by
  obtain ⟨hstore, -, -⟩ := restoreDevices_fields platforms now s.store.registry.devices
    { s with readable := some platforms }
  rintro ps hplatforms hlive id x hx hmem ⟨x', q, hx', hq, -⟩
  have hfields := restoreDevices_flags platforms now s.store.registry.devices
    { s with readable := some platforms }
  have hps : ps = platforms := Option.some.inj (hplatforms.symm.trans hfields.1)
  have hstart : s.disposed = false := hfields.2.symm.trans hlive
  rw [hx] at hx'
  cases hx'
  have hstanding : s.store.registry.standing id = some x := by
    have := congrArg Store.registry hstore
    rw [← this]
    exact hx
  obtain ⟨d, hd, hquarantined, -, hplatform, -⟩ := quarantined_of_standing hstanding hq
  obtain ⟨hdmem, hid⟩ := Registry.device_mem hd
  obtain ⟨-, hall⟩ := restoreDevices_timers platforms now s.store.registry.devices
    { s with readable := some platforms } hstart
  refine .inl (hid ▸ hall d hdmem hquarantined ?_)
  rw [← hplatform, ← hps]
  exact hmem

/-! ### The run -/

theorem QuarantineHost.Watched.step (h : QuarantineOk c s) (hw : s.Watched)
    (hdriven : s.Driven c) {a : Int × QuarantineAction} (hadmits : c.Admits s a)
    (htakes : QuarantineOptions.Takes s a) : (s.step c a).Watched ∧ (s.step c a).Driven c := by
  obtain ⟨now, a⟩ := a
  have hat : (s.at_ now).Watched ∧ (s.at_ now).Driven c :=
    ⟨hw.outside rfl rfl (stands_same rfl) fun _ id hid => hid.same rfl rfl rfl, hdriven⟩
  have hpass : (s.pass now).Watched ∧ (s.pass now).Driven c :=
    ⟨hw.outside rfl rfl (stands_same rfl) fun _ id hid => hid.same rfl rfl rfl, hdriven⟩
  have henter : ∀ deviceId cause nextRetryAt writable, s.store.clock ≤ now →
      (s.enter c deviceId cause nextRetryAt now writable).Watched ∧
        (s.enter c deviceId cause nextRetryAt now writable).Driven c := by
    intro deviceId cause nextRetryAt writable hle
    obtain ⟨-, -, hreadable, -, -⟩ :=
      enter_fields now deviceId (c := c) s cause nextRetryAt writable
    exact ⟨hw.enter h.store hle, fun ps hps => hdriven ps (hreadable ▸ hps)⟩
  cases a with
  | section_ w writable =>
    simp only [QuarantineHost.step]
    split
    · exact ⟨hw.outside rfl rfl (section_stands h.store hadmits)
        fun _ id hid => hid.same rfl rfl rfl, hdriven⟩
    · exact hpass
  | enter deviceId cause calledAt writable => exact henter _ _ _ _ hadmits
  | enterFromStalledTransition deviceId findingState calledAt writable =>
    simp only [QuarantineHost.step, QuarantineHost.enterFromStalledTransition]
    split
    · exact henter _ _ _ _ hadmits
    · exact hpass
  | armEntered i =>
    simp only [QuarantineHost.step, QuarantineHost.armEntered]
    split
    · exact hat
    · rename_i deviceId nextRetryAt hentry
      obtain ⟨-, hreadable, hdisposed⟩ := arm_entered (s.at_ now) deviceId nextRetryAt now
      refine ⟨hw.outside hreadable hdisposed (stands_same (arm_registry ..)) fun hlive id hid => ?_,
        fun ps hps => hdriven ps (hreadable ▸ hps)⟩
      exact attended_armEntered hentry hlive hid
  | fire deviceId =>
    simp only [QuarantineHost.step, QuarantineHost.fire]
    split
    · exact hat
    · split
      · exact hat
      · exact ⟨hw.outside rfl rfl (stands_same rfl) fun _ id hid => attended_fire hid, hdriven⟩
  | retry i m =>
    simp only [QuarantineHost.step]
    cases hr : s.retries[i]? with
    | none =>
      simp only [QuarantineHost.retry, hr]
      exact hat
    | some r =>
      have hstep := retry_step now (c := c) hr m
      refine ⟨hw.retryStep h hdriven hadmits hr hstep ?_, fun ps hps => hdriven ps ?_⟩
      · rintro writable rfl d w hpoint
        exact htakes r d w hr hpoint
      · rw [← hps]
        exact hstep.readable.symm
  | claim deviceId =>
    simp only [QuarantineHost.step]
    split
    · exact hat
    · exact ⟨hw.outside rfl rfl (stands_same rfl) fun _ id hid => hid.same rfl rfl rfl, hdriven⟩
  | release deviceId =>
    exact ⟨hw.outside rfl rfl (stands_same rfl) fun _ id hid => hid.same rfl rfl rfl, hdriven⟩
  | restore platforms =>
    simp only [QuarantineHost.step]
    split
    · exact hat
    · refine ⟨watched_restore platforms now, fun ps hps => ?_⟩
      have hfields := restoreDevices_flags platforms now s.store.registry.devices
        { s.at_ now with readable := some platforms }
      obtain rfl : ps = platforms := Option.some.inj (hps.symm.trans hfields.1)
      exact hadmits.2
  | dispose =>
    refine ⟨fun _ _ hlive => ?_, hdriven⟩
    cases hlive
  | restart =>
    refine ⟨?_, ?_⟩ <;>
      · intro ps hps
        cases hps

/-! ### Attempts only climb -/

/-- Every step runs outside the retries, but for a retry's write. -/
theorem step_outside (h : QuarantineOk c s) {a : Int × QuarantineAction} (hadmits : c.Admits s a) :
    RunsOutside s (s.step c a) ∨ ∃ (now : Int) (i : Nat) (writable : Bool) (r : Retry) (d : Device)
      (w : RetryWrite), a = (now, .retry i (.write writable)) ∧ s.retries[i]? = some r ∧
        r.point = .claimed d (.write w) ∧ s.store.clock ≤ now ∧
        (s.step c a).store = s.store.attempted c.registry (w.call r.deviceId) now writable := by
  obtain ⟨now, a⟩ := a
  cases a with
  | section_ w writable =>
    simp only [QuarantineHost.step]
    split
    · exact .inl (section_outside h.store hadmits)
    · exact .inl (.same rfl)
  | enter deviceId cause calledAt writable => exact .inl (enter_outside h.store hadmits)
  | enterFromStalledTransition deviceId findingState calledAt writable =>
    simp only [QuarantineHost.step, QuarantineHost.enterFromStalledTransition]
    split
    · exact .inl (enter_outside h.store hadmits)
    · exact .inl (.same rfl)
  | armEntered i =>
    simp only [QuarantineHost.step, QuarantineHost.armEntered]
    split
    · exact .inl (.same rfl)
    · exact .inl (.same (arm_registry ..))
  | fire deviceId =>
    simp only [QuarantineHost.step, QuarantineHost.fire]
    split
    · exact .inl (.same rfl)
    · split <;> exact .inl (.same rfl)
  | retry i m =>
    simp only [QuarantineHost.step]
    cases hr : s.retries[i]? with
    | none =>
      simp only [QuarantineHost.retry, hr]
      exact .inl (.same rfl)
    | some r =>
      have hstep := retry_step now (c := c) hr m
      generalize s.retry c i m now = t at hstep ⊢
      cases hstep with
      | refused hpoint => exact .inl (.same (arm_registry ..))
      | arms hpoint hdue => exact .inl (.same (arm_registry ..))
      | @writes d w writable hm hpoint =>
        exact .inr ⟨now, i, writable, r, d, w, by rw [hm], hr, hpoint, hadmits, rfl⟩
      | _ => exact .inl (.same rfl)
  | claim deviceId =>
    simp only [QuarantineHost.step]
    split <;> exact .inl (.same rfl)
  | release deviceId => exact .inl (.same rfl)
  | restore platforms =>
    simp only [QuarantineHost.step]
    split
    · exact .inl (.same rfl)
    · have hstore := congrArg Store.registry (restoreDevices_fields platforms now
        s.store.registry.devices { s.at_ now with readable := some platforms }).1
      exact .inl (.same hstore)
  | dispose => exact .inl (.same rfl)
  | restart =>
    refine .inl fun deviceId x' hx' => ?_
    have hstanding := reopen_standing (c := c) h.store hadmits deviceId
    exact .inl ⟨x', hstanding ▸ hx', Outside.refl x'⟩

/-- A device that stays quarantined keeps its attempts, or has a higher count written. -/
theorem step_climbs (h : QuarantineOk c s) {a : Int × QuarantineAction} (hadmits : c.Admits s a)
    {x x' : Standing} {q q' : Quarantine} (hx : s.store.registry.standing deviceId = some x)
    (hq : x.quarantine = some q) (hx' : (s.step c a).store.registry.standing deviceId = some x')
    (hq' : x'.quarantine = some q') : q.attempts ≤ q'.attempts := by
  rcases step_outside h hadmits with hout | ⟨now, i, writable, r, d, w, rfl, hr, hpoint, hle, hstore⟩
  · rcases hout deviceId x' hx' with ⟨y, hy, hout⟩ | ⟨-, hnone⟩
    · rw [hx] at hy
      cases hy
      rcases hout.quarantine with hnone | hsame | ⟨hnone, -⟩
      · rw [hnone] at hq'
        cases hq'
      · rw [hsame, hq] at hq'
        cases hq'
        exact Int.le_refl _
      · rw [hnone] at hq
        cases hq
    · rw [hnone] at hq'
      cases hq'
  · rw [hstore] at hx'
    have hok := h.retries i r hr
    rw [RetryOk, hpoint] at hok
    obtain ⟨hsnap, hstage, hcounts⟩ := hok
    rcases write_writes r.deviceId writable (c := c) h.store w hle with
      ⟨hsame, -⟩ | ⟨draft, ⟨y, hy, -, v, hcommitted, hv⟩, hcommit⟩
    · rw [hsame, hx] at hx'
      cases hx'
      rw [hq] at hq'
      cases hq'
      exact Int.le_refl _
    · rw [hcommit, hcommitted] at hx'
      by_cases hid : deviceId = r.deviceId
      · subst hid
        rw [Function.update_self] at hx'
        have hfloor := hcounts rfl x q hx hq
        rw [hv x' hx'] at hq'
        cases w with
        | failure attempts nextRetryAt =>
          cases hq'
          obtain ⟨-, hattempts⟩ := hstage
          change q.attempts ≤ attempts
          omega
        | stranded attempts =>
          cases hq'
          obtain ⟨-, hattempts⟩ := hstage
          change q.attempts ≤ attempts
          omega
        | _ => cases hq'
      · rw [Function.update_of_ne hid, hx] at hx'
        cases hx'
        rw [hq] at hq'
        cases hq'
        exact Int.le_refl _

/-! ### Failed attempts -/

/-- The retry is past an attempt that failed and that is not yet counted. -/
def PastFailure (d : Device) : RetryStage → Prop
  | .write (.failure attempts _) => attempts = d.attempts + 1
  | .lastDestroy _ | .write (.abandoned _) | .write (.stranded _) => True
  | _ => False

/-- `k` attempts on the device failed: all are counted, or all but the one of a retry that is past
    its failure. -/
def QuarantineHost.Failed (s : QuarantineHost) (deviceId : String) (k : Int) : Prop :=
  ∃ x q, s.store.registry.standing deviceId = some x ∧ x.quarantine = some q ∧
    (k ≤ q.attempts ∨ k ≤ q.attempts + 1 ∧ ∃ (i : Nat) (r : Retry) (d : Device) (stage : RetryStage),
      s.retries[i]? = some r ∧ r.deviceId = deviceId ∧ r.point = .claimed d stage ∧
        PastFailure d stage)

theorem retryFailed_pastFailure {d : Device} {attempts : Int} (hattempts : attempts = d.attempts + 1)
    (hdriver : d.isPhysical = true ∨ d.platform ∈ c.drivers) :
    PastFailure d (c.retryFailed d attempts now) := by
  unfold QuarantineOptions.retryFailed
  split
  · unfold QuarantineOptions.giveUp
    split
    · trivial
    · rename_i hphysical
      rw [if_pos (by simpa using hdriver.resolve_left (by simpa using hphysical))]
      trivial
  · exact hattempts

/-- An attempt that fails: its retry goes on from the failure. -/
theorem failsAttempt_spec {a : Int × QuarantineAction} (h : s.failsAttempt deviceId a = true) :
    ∃ (now : Int) (i : Nat) (r : Retry) (d : Device) (stage : RetryStage) (attempts : Int),
      a = (now, .retry i (.driver none)) ∧ s.retries[i]? = some r ∧ r.deviceId = deviceId ∧
        r.point = .claimed d stage ∧ (stage = .reclaim attempts ∨ stage = .destroy attempts) := by
  obtain ⟨now, a⟩ := a
  unfold QuarantineHost.failsAttempt at h
  split at h
  · rename_i now i heq
    cases heq
    split at h
    · rename_i id d attempts turn hr
      exact ⟨now, i, _, d, _, attempts, rfl, hr, of_decide_eq_true h, rfl, .inl rfl⟩
    · rename_i id d attempts turn hr
      exact ⟨now, i, _, d, _, attempts, rfl, hr, of_decide_eq_true h, rfl, .inr rfl⟩
    · cases h
  · cases h

theorem step_failsAttempt {i : Nat} {r : Retry} {d : Device} {stage : RetryStage} {attempts : Int}
    (hr : s.retries[i]? = some r) (hpoint : r.point = .claimed d stage)
    (hstage : stage = .reclaim attempts ∨ stage = .destroy attempts) :
    s.step c (now, .retry i (.driver none)) =
      (s.at_ now).setRetry i { r with point := .claimed d (c.retryFailed d attempts now) } := by
  rcases hstage with rfl | rfl <;>
    simp only [QuarantineHost.step, QuarantineHost.retry, hr, hpoint, QuarantineOptions.afterDriver]

/-- An attempt that fails is one more, past its failure and not counted yet. -/
theorem QuarantineHost.Failed.fails (h : QuarantineOk c s) {a : Int × QuarantineAction} {k : Int}
    (hf : s.Failed deviceId k) (hfails : s.failsAttempt deviceId a = true) :
    (s.step c a).Failed deviceId (k + 1) := by
  obtain ⟨now, i, r, d, stage, attempts, rfl, hr, hid, hpoint, hstage⟩ := failsAttempt_spec hfails
  obtain ⟨x, q, hx, hq, hk⟩ := hf
  have hok := h.retries i r hr
  rw [RetryOk, hpoint] at hok
  obtain ⟨-, hstageOk, -⟩ := hok
  have hnot : ¬ PastFailure d stage := by rcases hstage with rfl | rfl <;> exact id
  have hcount : k ≤ q.attempts := by
    rcases hk with hk | ⟨-, j, r', d', stage', hj, hid', hpoint', hpast⟩
    · exact hk
    · -- another retry past a failure would hold the same claim
      have hij := h.alone i j r r' hr hj (by rw [hpoint]; rfl) (by rw [hpoint']; rfl)
        (hid.trans hid'.symm)
      rw [← hij, hr] at hj
      cases hj
      rw [hpoint] at hpoint'
      cases hpoint'
      exact absurd hpast hnot
  rw [step_failsAttempt hr hpoint hstage]
  refine ⟨x, q, hx, hq, .inr ⟨by omega, i, _, d, _, getElem?_set_of_getElem? hr, hid, rfl, ?_⟩⟩
  rcases hstage with rfl | rfl
  · exact retryFailed_pastFailure hstageOk.2 (.inl hstageOk.1)
  · exact retryFailed_pastFailure hstageOk.2.1 (.inr hstageOk.2.2)

theorem RetryStep.retries {i : Nat} {r : Retry} {m : RetryMove}
    (hstep : RetryStep c s i r now m s') :
    s'.retries = s.retries ∨ ∃ r', s'.retries = s.retries.set i r' := by
  cases hstep with
  | stays => exact .inl rfl
  | refused hpoint => exact .inr ⟨_, congrArg (List.set · i _) (arm_fields ..).2.1⟩
  | arms hpoint hdue => exact .inr ⟨_, congrArg (List.set · i _) (arm_fields ..).2.1⟩
  | _ => exact .inr ⟨_, rfl⟩

/-- The other actions leave every retry at its position. -/
theorem step_retries {a : Int × QuarantineAction} (hrestart : a.2 ≠ .restart)
    (hretry : ∀ i m, a.2 ≠ .retry i m) {j : Nat} {r : Retry} (hj : s.retries[j]? = some r) :
    (s.step c a).retries[j]? = some r := by
  obtain ⟨now, a⟩ := a
  cases a with
  | section_ w writable =>
    simp only [QuarantineHost.step]
    split <;> exact hj
  | enter deviceId cause calledAt writable =>
    simp only [QuarantineHost.step]
    rw [(enter_retries _ _ ..).1]
    exact hj
  | enterFromStalledTransition deviceId findingState calledAt writable =>
    simp only [QuarantineHost.step, QuarantineHost.enterFromStalledTransition]
    split
    · rw [(enter_retries _ _ ..).1]
      exact hj
    · exact hj
  | armEntered i =>
    simp only [QuarantineHost.step, QuarantineHost.armEntered]
    split
    · exact hj
    · exact (congrArg (·[j]?) (arm_fields ..).2.1).trans hj
  | fire deviceId =>
    simp only [QuarantineHost.step, QuarantineHost.fire]
    split
    · exact hj
    · split
      · exact hj
      · exact (List.getElem?_append_left (List.getElem?_eq_some_iff.mp hj).1).trans hj
  | retry i m => exact absurd rfl (hretry i m)
  | claim deviceId =>
    simp only [QuarantineHost.step]
    split <;> exact hj
  | release deviceId => exact hj
  | restore platforms =>
    simp only [QuarantineHost.step]
    split
    · exact hj
    · have hretries := (restoreDevices_fields platforms now s.store.registry.devices
        { s.at_ now with readable := some platforms }).2.1
      exact (congrArg (·[j]?) hretries).trans hj
  | dispose => exact hj
  | restart => exact absurd rfl hrestart

/-- What the disk takes of a quarantined device stands as it was written. -/
theorem taken_standing (h : QuarantineOk c s) {w : RetryWrite} (hle : s.store.clock ≤ now)
    {x x' : Standing} (hx : s.store.registry.standing deviceId = some x) (hq : x.quarantine ≠ none)
    (hready : ∀ target, w = .recovered target → target = .ready)
    (hx' : (s.store.attempted c.registry (w.call deviceId) now true).registry.standing deviceId =
      some x') : x'.quarantine = w.leaves := by
  obtain ⟨⟨v, hcommitted, hv⟩, -⟩ := write_taken now (c := c) h.store w hle hx hq hready
  rw [hcommitted, Function.update_self] at hx'
  rw [hv x' hx']

/-- A retry past its failure stays so, or its count is written. -/
theorem pastFailure_step (h : QuarantineOk c s) {i : Nat} {r : Retry} {d : Device}
    {stage : RetryStage} {m : RetryMove} (hle : s.store.clock ≤ now) (hr : s.retries[i]? = some r)
    (hpoint : r.point = .claimed d stage) (hpast : PastFailure d stage)
    (htakes : QuarantineOptions.Takes s (now, .retry i m)) (hstep : RetryStep c s i r now m s')
    {x x' : Standing} {q q' : Quarantine} (hx : s.store.registry.standing r.deviceId = some x)
    (hq : x.quarantine = some q) (hx' : s'.store.registry.standing r.deviceId = some x')
    (hq' : x'.quarantine = some q') (hnext : q'.nextRetryAt ≠ none) :
    q.attempts + 1 ≤ q'.attempts ∨ ∃ (r' : Retry) (stage' : RetryStage), s'.retries[i]? = some r' ∧
      r'.deviceId = r.deviceId ∧ r'.point = .claimed d stage' ∧ PastFailure d stage' := by
  have hok := h.retries i r hr
  rw [RetryOk, hpoint] at hok
  obtain ⟨-, -, hcounts⟩ := hok
  cases hstep with
  | stays => exact .inr ⟨r, stage, hr, rfl, hpoint, hpast⟩
  | @goes y hgoes =>
    refine .inr ⟨{ r with point := y }, ?_⟩
    cases hgoes with
    | claims hp hfree =>
      rw [hp] at hpoint
      cases hpoint
    | presence present hp =>
      rw [hp] at hpoint
      cases hpoint
      exact hpast.elim
    | @driver d' stage₀ stage' answer hp hafter =>
      rw [hp] at hpoint
      cases hpoint
      refine ⟨stage', getElem?_set_of_getElem? hr, rfl, rfl, ?_⟩
      cases stage with
      | lastDestroy attempts =>
        cases answer with
        | some target =>
          cases hafter
          trivial
        | none =>
          cases hafter
          trivial
      | reclaim attempts => exact hpast.elim
      | destroy attempts => exact hpast.elim
      | _ => cases hafter
    | ends hp hdue =>
      rw [hp] at hpoint
      cases hpoint
      exact hpast.elim
  | finds hp hd hquarantined =>
    rw [hp] at hpoint
    cases hpoint
  | leaves hp hnone =>
    rw [hp] at hpoint
    cases hpoint
  | refused hp =>
    rw [hp] at hpoint
    cases hpoint
  | arms hp hdue =>
    rw [hp] at hpoint
    cases hpoint
    exact hpast.elim
  | @writes d' w writable hm hp =>
    subst hm
    rw [hp] at hpoint
    cases hpoint
    have hquarantined : x.quarantine ≠ none := by
      rw [hq]
      simp
    obtain ⟨rfl, hready⟩ := htakes r d w hr hp x hx hquarantined
    have hleaves := taken_standing h hle hx hquarantined hready hx'
    rw [hq'] at hleaves
    have hfloor := hcounts rfl x q hx hq
    cases w with
    | failure attempts nextRetryAt =>
      cases hleaves
      refine .inl ?_
      change q.attempts + 1 ≤ attempts
      have hattempts : attempts = d.attempts + 1 := hpast
      omega
    | stranded attempts =>
      cases hleaves
      exact absurd rfl hnext
    | _ => cases hleaves

/-- While the device stays quarantined and unstranded, no failed attempt is forgotten. -/
theorem QuarantineHost.Failed.keeps (h : QuarantineOk c s) {a : Int × QuarantineAction} {k : Int}
    (hadmits : c.Admits s a) (htakes : QuarantineOptions.Takes s a) (hrestart : a.2 ≠ .restart)
    (hf : s.Failed deviceId k) (hpending : (s.step c a).Pending deviceId) :
    (s.step c a).Failed deviceId k := by
  obtain ⟨x, q, hx, hq, hk⟩ := hf
  obtain ⟨x', q', hx', hq', hnext⟩ := hpending
  have hclimbs := step_climbs h hadmits hx hq hx' hq'
  refine ⟨x', q', hx', hq', ?_⟩
  rcases hk with hk | ⟨hk, j, r, d, stage, hj, rfl, hpoint, hpast⟩
  · exact .inl (by omega)
  · by_cases hretry : ∃ i m, a.2 = .retry i m
    · obtain ⟨now, a⟩ := a
      obtain ⟨i, m, rfl⟩ := hretry
      cases hr : s.retries[i]? with
      | none =>
        refine .inr ⟨by omega, j, r, d, stage, ?_, rfl, hpoint, hpast⟩
        simp only [QuarantineHost.step, QuarantineHost.retry, hr]
        exact hj
      | some y =>
        have hstep := retry_step now (c := c) hr m
        by_cases hji : j = i
        · subst hji
          rw [hj] at hr
          cases hr
          rcases pastFailure_step h hadmits hj hpoint hpast htakes hstep hx hq hx' hq' hnext with
            hcounted | ⟨r', stage', hr', hid, hpoint', hpast'⟩
          · exact .inl (by omega)
          · exact .inr ⟨by omega, j, r', d, stage', hr', hid, hpoint', hpast'⟩
        · refine .inr ⟨by omega, j, r, d, stage, ?_, rfl, hpoint, hpast⟩
          rcases hstep.retries with hsame | ⟨y', hset⟩
          · exact (congrArg (·[j]?) hsame).trans hj
          · refine (congrArg (·[j]?) hset).trans ?_
            exact (getElem?_set_if hr y' j).trans ((if_neg hji).trans hj)
    · have hother : ∀ i m, a.2 ≠ .retry i m := fun i m heq => hretry ⟨i, m, heq⟩
      exact .inr ⟨by omega, j, r, d, stage, step_retries hrestart hother hj, rfl, hpoint, hpast⟩

/-- Below the limit, a device at the limit is being given up. -/
theorem QuarantineHost.Failed.limit (h : QuarantineOk c s) {k : Int} (hf : s.Failed deviceId k)
    (hpending : s.Pending deviceId) :
    k ≤ c.maxRetries ∧ (k = c.maxRetries → s.GivesUp deviceId) := by
  obtain ⟨x, q, hx, hq, hk⟩ := hf
  obtain ⟨x', q', hx', hq', hnext⟩ := hpending
  rw [hx] at hx'
  cases hx'
  rw [hq] at hq'
  cases hq'
  have hbelow := (h.counted deviceId x q hx hq).below hnext
  refine ⟨by omega, fun hlimit => ?_⟩
  rcases hk with hk | ⟨hk, i, r, d, stage, hr, rfl, hpoint, hpast⟩
  · omega
  · have hok := h.retries i r hr
    rw [RetryOk, hpoint] at hok
    obtain ⟨-, hstage, hcounts⟩ := hok
    have hmem := List.mem_of_getElem? hr
    cases stage with
    | lastDestroy attempts => exact ⟨r, hmem, rfl, d, attempts, .inl hpoint⟩
    | write w =>
      cases w with
      | failure attempts nextRetryAt =>
        have hfloor := hcounts rfl x q hx hq
        have hattempts : attempts = d.attempts + 1 := hpast
        have hunder := hstage.1
        omega
      | abandoned attempts => exact ⟨r, hmem, rfl, d, attempts, .inr (.inl hpoint)⟩
      | stranded attempts => exact ⟨r, hmem, rfl, d, attempts, .inr (.inr hpoint)⟩
      | recovered target => exact hpast.elim
      | deleted => exact hpast.elim
    | _ => exact hpast.elim

/-- A device that stays pending over a run keeps every failed attempt of it. -/
theorem QuarantineHost.Failed.run {acts : List (Int × QuarantineAction)} {k : Int}
    (h : QuarantineOk c s) (hall : AllSteps (QuarantineHost.step c)
      (fun s a => c.Admits s a ∧ QuarantineOptions.Takes s a) s acts)
    (hstays : StaysPending c deviceId s acts) (hf : s.Failed deviceId k) :
    (run (QuarantineHost.step c) s acts).Failed deviceId (k + failures c deviceId s acts) ∧
      QuarantineOk c (run (QuarantineHost.step c) s acts) ∧
      (run (QuarantineHost.step c) s acts).Pending deviceId := by
  induction acts generalizing s k with
  | nil =>
    refine ⟨?_, h, hstays⟩
    simpa [failures] using hf
  | cons a acts ih =>
    obtain ⟨⟨hadmits, htakes⟩, hall⟩ := hall
    obtain ⟨-, hrestart, hstays⟩ := hstays
    have hnext := h.step hadmits
    have hpending : (s.step c a).Pending deviceId := by
      cases acts with
      | nil => exact hstays
      | cons b acts => exact hstays.1
    by_cases hfails : s.failsAttempt deviceId a = true
    · have hmore := ih hnext hall hstays (hf.fails h hfails)
      have hsum : k + 1 + (failures c deviceId (s.step c a) acts : Int) =
          k + (failures c deviceId s (a :: acts) : Nat) := by
        simp only [failures, if_pos hfails]
        omega
      exact ⟨hsum ▸ hmore.1, hmore.2⟩
    · have hmore := ih hnext hall hstays (hf.keeps h hadmits htakes hrestart hpending)
      have hsum : failures c deviceId s (a :: acts) = failures c deviceId (s.step c a) acts := by
        simp [failures, hfails]
      exact ⟨hsum ▸ hmore.1, hmore.2⟩

/-- The last write of a device that is given up takes it out of quarantine, or strands it. -/
theorem gives_up (h : QuarantineOk c s) {i : Nat} {writable : Bool} {r : Retry} {d : Device}
    {w : RetryWrite} (hr : s.retries[i]? = some r) (hpoint : r.point = .claimed d (.write w))
    (hlast : ∃ attempts, w = .abandoned attempts ∨ w = .stranded attempts)
    (hadmits : c.Admits s (now, .retry i (.write writable)))
    (htakes : QuarantineOptions.Takes s (now, .retry i (.write writable))) :
    ¬ (s.step c (now, .retry i (.write writable))).Pending r.deviceId := by
  rintro ⟨x', q', hx', hq', hnext⟩
  have hstore : (s.step c (now, .retry i (.write writable))).store =
      s.store.attempted c.registry (w.call r.deviceId) now writable := by
    simp only [QuarantineHost.step, QuarantineHost.retry, hr, hpoint]
    rfl
  rw [hstore] at hx'
  obtain ⟨x, hx, hwritten⟩ := write_standing h.store w hadmits hx'
  have hquarantined : x.quarantine ≠ none := by
    rcases hwritten with ⟨hne, -⟩ | ⟨-, hq | rfl⟩
    · exact absurd rfl hne
    · exact hq
    · rw [hq']
      simp
  obtain ⟨rfl, hready⟩ := htakes r d w hr hpoint x hx hquarantined
  have hleaves := taken_standing h hadmits hx hquarantined hready hx'
  rw [hq'] at hleaves
  obtain ⟨attempts, rfl | rfl⟩ := hlast
  · cases hleaves
  · cases hleaves
    exact hnext rfl

/-- The whole property of a state with the invariant. -/
theorem QuarantineOk.neverStalls (h : QuarantineOk c s) (hw : s.Watched) : NeverStalls c s where
  watched := hw
  climbs _ hadmits _ _ _ _ _ hx hq hx' hq' := step_climbs h hadmits hx hq hx' hq'
  spends deviceId acts hall hstays := by
    have hpending : s.Pending deviceId := by
      cases acts with
      | nil => exact hstays
      | cons b acts => exact hstays.1
    obtain ⟨x, q, hx, hq, -⟩ := hpending
    have hzero : s.Failed deviceId 0 := ⟨x, q, hx, hq, .inl (h.counted deviceId x q hx hq).nonneg⟩
    obtain ⟨hfailed, hok, hlast⟩ := hzero.run h hall hstays
    rw [Int.zero_add] at hfailed
    exact hfailed.limit hok hlast
  givesUp now i writable r d w hr hpoint hlast hadmits htakes := by
    refine ⟨gives_up h hr hpoint hlast hadmits htakes, ?_⟩
    rintro attempts rfl
    have hok := h.retries i r hr
    rw [RetryOk, hpoint] at hok
    exact hok.2.1.1

/-! ### The whole run -/

/-- In every run whose writes of quarantined devices are taken, quarantine never stalls. -/
theorem quarantine_never_stalls (c : QuarantineOptions) (start : Int)
    (acts : List (Int × QuarantineAction))
    (hrun : AllSteps (QuarantineHost.step c)
      (fun s a => c.Admits s a ∧ QuarantineOptions.Takes s a)
      (QuarantineHost.start (Store.create start)) acts) :
    NeverStalls c (run (QuarantineHost.step c) (QuarantineHost.start (Store.create start)) acts) := by
  let I : QuarantineHost → Prop := fun s => QuarantineOk c s ∧ s.Watched ∧ s.Driven c
  have hstart : I (QuarantineHost.start (Store.create start)) := by
    refine ⟨QuarantineOk.start (create_ok start) ?_, ?_, ?_⟩
    · intro deviceId x q hx
      cases hx
    · intro platforms hplatforms
      cases hplatforms
    · intro platforms hplatforms
      cases hplatforms
  have hkeep : ∀ s a, c.Admits s a ∧ QuarantineOptions.Takes s a → I s → I (s.step c a) := by
    rintro s a ⟨hadmits, htakes⟩ ⟨hok, hw, hdriven⟩
    exact ⟨hok.step hadmits, hw.step hok hdriven hadmits htakes⟩
  obtain ⟨hok, hw, -⟩ := run_invariant_of_allSteps hkeep acts _ hstart hrun
  exact hok.neverStalls hw

end Progress

/-! ### A write that throws -/

def threeRetries : QuarantineOptions :=
  ⟨shortRetention, 3, 5, none, fun attempts => 10 * attempts, [.ios], by decide⟩

/-- A provision stalls, its device is quarantined and retried, and the driver's delete fails. -/
def failsToDelete : List (Int × QuarantineAction) :=
  [(0, .restore [.ios]), (1, .section_ (.register "dev_1" "udid_1" iphoneSpec iphoneData) true),
    (2, .enterFromStalledTransition "dev_1" .provisioning 2 true), (2, .armEntered 0),
    (7, .fire "dev_1"), (7, .retry 0 .read), (7, .retry 0 .tryClaim), (8, .retry 0 (.driver none))]

theorem failsToDelete_admitted :
    AllSteps (QuarantineHost.step threeRetries)
      (fun s a => threeRetries.Admits s a ∧ QuarantineOptions.Takes s a)
      (QuarantineHost.start (Store.create 0)) failsToDelete := by
  have hregister : threeRetries.Admits
      ((QuarantineHost.start (Store.create 0)).step threeRetries (0, .restore [.ios]))
      (1, .section_ (.register "dev_1" "udid_1" iphoneSpec iphoneData) true) := by
    refine ⟨⟨by decide +kernel, ?_, trivial⟩, rfl, ?_⟩
    · intro hmem
      cases hmem
    · intro id physical hadds r hr
      cases hr
  refine ⟨⟨⟨by decide +kernel, fun p hp => hp⟩, trivial⟩, ⟨hregister, trivial⟩, ?_⟩
  iterate 5 refine ⟨⟨by change (_ : Int) ≤ _; decide +kernel, trivial⟩, ?_⟩
  exact ⟨⟨by change (_ : Int) ≤ _; decide +kernel, trivial⟩, trivial⟩

/-- The retry is at a write that recovers no device. -/
theorem takes_of_not_recovered {s : QuarantineHost} {now : Int} {i : Nat}
    (h : (s.retries[i]?.all fun r =>
      match r.point with
      | .claimed _ (.write (.recovered _)) => false
      | _ => true) = true) : QuarantineOptions.Takes s (now, .retry i (.write true)) := by
  rintro r d w hr hpoint x hx hq
  rw [hr, Option.all_some, hpoint] at h
  refine ⟨rfl, ?_⟩
  rintro target rfl
  cases h

/-- The failure is counted, and the next retry armed. -/
def countsFailure : List (Int × QuarantineAction) :=
  failsToDelete ++ [(8, .retry 0 (.write true)), (8, .retry 0 .goOn), (8, .retry 0 .goOn)]

theorem quarantine_never_stalls_countsFailure :
    ((run (QuarantineHost.step threeRetries) (QuarantineHost.start (Store.create 0))
        countsFailure).timers "dev_1" = some 18 ∧
      failures threeRetries "dev_1" (QuarantineHost.start (Store.create 0)) countsFailure = 1) ∧
    NeverStalls threeRetries
      (run (QuarantineHost.step threeRetries) (QuarantineHost.start (Store.create 0))
        countsFailure) := by
  refine ⟨by decide +kernel, quarantine_never_stalls threeRetries 0 countsFailure ?_⟩
  refine AllSteps.append failsToDelete_admitted ⟨⟨?_, takes_of_not_recovered ?_⟩, ?_⟩
  · change (_ : Int) ≤ _
    decide +kernel
  · decide +kernel
  · exact ⟨⟨by change (_ : Int) ≤ _; decide +kernel, trivial⟩,
      ⟨⟨by change (_ : Int) ≤ _; decide +kernel, trivial⟩, trivial⟩⟩

/-- The disk refuses the count. -/
def losesFailure : List (Int × QuarantineAction) :=
  failsToDelete ++ [(8, .retry 0 (.write false)), (8, .retry 0 .goOn)]

/-- The device stays quarantined, with no timer and no retry. -/
theorem thrown_write_stalls_quarantine :
    AllSteps (QuarantineHost.step threeRetries) threeRetries.Admits
      (QuarantineHost.start (Store.create 0)) losesFailure ∧
    ¬ NeverStalls threeRetries
      (run (QuarantineHost.step threeRetries) (QuarantineHost.start (Store.create 0))
        losesFailure) := by
  refine ⟨?_, fun h => ?_⟩
  · refine AllSteps.append (failsToDelete_admitted.mono fun _ _ h => h.1) ⟨?_, ?_, trivial⟩
    · change (_ : Int) ≤ _
      decide +kernel
    · change (_ : Int) ≤ _
      decide +kernel
  · have hstanding : (run (QuarantineHost.step threeRetries)
        (QuarantineHost.start (Store.create 0)) losesFailure).store.registry.standing "dev_1" =
          some ⟨false, .ios, some ⟨0, some 7⟩⟩ := by
      decide +kernel
    rcases h.watched [.ios] (by decide +kernel) (by decide +kernel) "dev_1" _ hstanding
        (List.mem_singleton.mpr rfl) ⟨_, _, hstanding, rfl, by simp⟩ with
      htimer | ⟨r, hr, -, hflight⟩ | ⟨e, he, -⟩
    · revert htimer
      decide +kernel
    · have hall : (run (QuarantineHost.step threeRetries) (QuarantineHost.start (Store.create 0))
          losesFailure).retries.all (fun r => !r.point.inFlight) = true := by
        decide +kernel
      have hover := List.all_eq_true.mp hall r hr
      rw [hflight] at hover
      cases hover
    · revert e
      decide +kernel

end Simlock.Worker
