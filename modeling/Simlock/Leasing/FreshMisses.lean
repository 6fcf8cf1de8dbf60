import Simlock.Leasing.PhysicalDeviceWatcher
import Simlock.Lib.Indexed

/-! An absence needs fresh misses in a row.

    The generation of a device is the number of its commits to ready less those whose reset is still
    to come. So a read that counts, at a device none of whose resets is to come, was begun after its
    last commit to ready, and the count is at most the fresh misses (`WatcherOk`). A write that waits
    was decided on enough of them as long as the device was not committed ready since the read began;
    the write itself does not look at the generation again (`isCurrent`). -/

namespace Simlock.Leasing

open Simlock.Lib Simlock.Core

/-- The device a write was decided for, if it is to become absent. -/
def WatcherWrite.decidedFor : WatcherWrite → Option PhysicalDevice
  | .markAbsent device _ | .endLease device _ _ => some device
  | _ => none

/-- Counts, generations and what the tick decided. -/
structure WatcherOk (stableObservations : Nat) (s : PhysicalDeviceWatcher) : Prop where
  commits : ∀ id, s.readied id = s.generations id + s.resets.count id
  counted : ∀ id, s.readied id = s.generations id → s.counts id ≤ s.misses id
  begun : ∀ t id, s.tick = some t → t.before id ≤ t.begun id ∧ t.begun id ≤ s.readied id
  answered : ∀ t id, s.tick = some t → t.point ≠ .reading → t.begun id ≤ s.generations id
  decided : ∀ t entries pending device, s.tick = some t → t.point = .waiting entries pending →
    pending.decidedFor = some device → s.readied device.id = t.begun device.id →
      stableObservations ≤ s.misses device.id

namespace PhysicalDeviceWatcher

/-- A write of an absence is still of the device it was decided for, and that device was not committed
    ready since the read that decided it began. -/
def isCurrent (s : PhysicalDeviceWatcher) : WatcherAct → Bool
  | .write _ claimed written =>
    match s.tick with
    | none => true
    | some t =>
      match t.point with
      | .waiting _ pending =>
        match pending.decidedFor, (s.callOf pending claimed).bind s.absentBy with
        | some device, some deviceId =>
          !written || deviceId = device.id && s.readied deviceId = t.begun deviceId
        | _, _ => true
      | _ => true
  | _ => true

end PhysicalDeviceWatcher

section Watcher

variable {stable : Nat} {o : RegistryOptions} {s : PhysicalDeviceWatcher}

open PhysicalDeviceWatcher

namespace WatcherOk

theorem start (r : Registry) : WatcherOk stable (.start r) where
  commits _ := rfl
  counted _ _ := Nat.le_refl 0
  begun _ _ ht := by cases ht
  answered _ _ ht := by cases ht
  decided _ _ _ _ ht := by cases ht

theorem withRegistry (h : WatcherOk stable s) (r : Registry) :
    WatcherOk stable { s with registry := r } :=
  ⟨h.commits, h.counted, h.begun, h.answered, h.decided⟩

theorem withAbsences (h : WatcherOk stable s) (absences : List (String × Nat)) :
    WatcherOk stable { s with absences := absences } :=
  ⟨h.commits, h.counted, h.begun, h.answered, h.decided⟩

theorem withInterrupted (h : WatcherOk stable s) (ids : List String) :
    WatcherOk stable { s with interrupted := ids } :=
  ⟨h.commits, h.counted, h.begun, h.answered, h.decided⟩

theorem endTick (h : WatcherOk stable s) : WatcherOk stable { s with tick := none } where
  commits := h.commits
  counted := h.counted
  begun _ _ ht := by cases ht
  answered _ _ ht := by cases ht
  decided _ _ _ _ ht := by cases ht

/-- A read begins with the generations and the commits as they are. -/
theorem beginRead (h : WatcherOk stable s) (t : WatcherTick) (platforms : List Platform) :
    WatcherOk stable (s.beginRead t platforms) := by
  cases platforms with
  | nil => exact h.endTick
  | cons platform platforms =>
    refine ⟨h.commits, h.counted, ?_, ?_, ?_⟩
    · rintro _ id ⟨⟩
      have hcommits := h.commits id
      exact (by omega : s.generations id ≤ s.readied id ∧ s.readied id ≤ s.readied id)
    · rintro _ id ⟨⟩ hpoint
      exact absurd rfl hpoint
    · rintro _ entries pending device ⟨⟩ hpoint
      cases hpoint

/-- A point that waits for no absence. -/
theorem setPoint (h : WatcherOk stable s) {t u : WatcherTick} (ht : s.tick = some t)
    (hreading : t.point ≠ .reading) (hbefore : u.before = t.before) (hbegun : u.begun = t.begun)
    {point : WatcherPoint}
    (hquiet : ∀ entries pending, point = .waiting entries pending → pending.decidedFor = none) :
    WatcherOk stable (s.setPoint u point) := by
  refine ⟨h.commits, h.counted, ?_, ?_, ?_⟩
  · rintro _ id ⟨⟩
    dsimp only
    rw [hbefore, hbegun]
    exact h.begun t id ht
  · rintro _ id ⟨⟩ -
    dsimp only
    rw [hbegun]
    exact h.answered t id ht hreading
  · rintro _ entries pending device ⟨⟩ hpoint hdevice
    rw [hquiet entries pending hpoint] at hdevice
    cases hdevice

theorem startTick (h : WatcherOk stable s) : WatcherOk stable s.startTick := by
  unfold PhysicalDeviceWatcher.startTick
  split
  · exact h
  · exact (h.withInterrupted _).beginRead _ _

/-- When the driver answers no reset is to come, so the generations count every commit. -/
theorem answer (h : WatcherOk stable s) (entries : Option (List PresentPhysical)) :
    WatcherOk stable (s.answered entries) := by
  unfold PhysicalDeviceWatcher.answered
  split
  · exact h
  · rename_i t ht
    split
    · split
      · exact h
      · rename_i hresets
        have hnone : s.resets = [] := not_not.mp hresets
        split
        · exact h.endTick
        · split
          · exact h.beginRead _ _
          · refine ⟨h.commits, h.counted, ?_, ?_, ?_⟩
            · rintro _ id ⟨⟩
              exact h.begun t id ht
            · rintro _ id ⟨⟩ -
              have hcommits := h.commits id
              rw [hnone, List.count_nil] at hcommits
              have hbegun := (h.begun t id ht).2
              exact (by omega : t.begun id ≤ s.generations id)
            · rintro _ entries pending device ⟨⟩ hpoint
              cases hpoint
    · exact h

/-! ### One device of the group -/

theorem misses_of_ne {t : WatcherTick} {deviceId id : String} {read : PhysicalRead}
    (hne : id ≠ deviceId) : s.noted t deviceId read id = s.misses id := by
  unfold noted
  split
  · exact Function.update_of_ne hne ..
  · split
    · exact Function.update_of_ne hne ..
    · rfl

/-- A device that is seen again has no misses and no count. -/
theorem present (h : WatcherOk stable s) {t : WatcherTick} {group : List PhysicalDevice}
    {entries entries' : List PresentPhysical} (ht : s.tick = some t)
    (hpoint : t.point = .observing entries) (device : PhysicalDevice) (osVersion : Option String) :
    WatcherOk stable
      ({ s with misses := s.noted t device.id (.present osVersion) }.present
        { t with group := group } entries' device osVersion) := by
  have hclear : WatcherOk stable
      { s with
        misses := Function.update s.misses device.id 0
        counts := Function.update s.counts device.id 0
        tick := some t } := by
    refine ⟨h.commits, fun id hid => ?_, ?_, ?_, ?_⟩
    · dsimp only
      by_cases hne : id = device.id
      · rw [hne, Function.update_self]
        exact Nat.zero_le _
      · rw [Function.update_of_ne hne, Function.update_of_ne hne]
        exact h.counted id hid
    · rintro _ id ⟨⟩
      exact h.begun t id ht
    · rintro _ id ⟨⟩ hp
      exact h.answered t id ht hp
    · rintro _ entries pending device ⟨⟩ hp
      rw [hpoint] at hp
      cases hp
  have hreading : t.point ≠ .reading := by simp [hpoint]
  unfold PhysicalDeviceWatcher.present
  dsimp only
  split
  · refine hclear.setPoint (t := t) (u := { t with group := group }) rfl hreading rfl rfl ?_
    rintro _ _ ⟨⟩
    rfl
  · split
    · refine hclear.setPoint (t := t) (u := { t with group := group }) rfl hreading rfl rfl ?_
      rintro _ _ ⟨⟩
      rfl
    · refine hclear.setPoint (t := t) (u := { t with group := group }) rfl hreading rfl rfl ?_
      rintro _ _ ⟨⟩

/-- A read that counts, where no reset is to come, was begun after the last commit to ready. -/
theorem fresh_of_current (h : WatcherOk stable s) {t : WatcherTick} {deviceId : String}
    (ht : s.tick = some t) (hcurrent : t.before deviceId = s.generations deviceId)
    (hcommits : s.readied deviceId = s.generations deviceId) :
    t.begun deviceId = s.readied deviceId := by
  have hbegun := h.begun t deviceId ht
  omega

/-- A read that counts where a reset is to come was begun before the commit. -/
theorem commits_of_begun (h : WatcherOk stable s) {t : WatcherTick} {deviceId : String}
    (ht : s.tick = some t) (hreading : t.point ≠ .reading)
    (hbegun : s.readied deviceId = t.begun deviceId) :
    s.readied deviceId = s.generations deviceId := by
  have hle := h.answered t deviceId ht hreading
  have hcommits := h.commits deviceId
  omega

/-- A miss that counts is a fresh one, unless a reset is to come that takes the count away. -/
theorem missed (h : WatcherOk stable s) {t : WatcherTick} {group : List PhysicalDevice}
    {entries entries' : List PresentPhysical} (ht : s.tick = some t)
    (hpoint : t.point = .observing entries) {device : PhysicalDevice}
    (hcurrent : t.before device.id = s.generations device.id) (reason : AbsentReason) :
    WatcherOk stable
      ({ s with misses := s.noted t device.id (.missing reason) }.missed
        stable { t with group := group } entries' device reason) := by
  have hreading : t.point ≠ .reading := by simp [hpoint]
  have hnoted : s.readied device.id = s.generations device.id →
      s.noted t device.id (.missing reason) device.id =
        s.misses device.id + 1 := by
    intro hcommits
    have hfresh := h.fresh_of_current ht hcurrent hcommits
    simp only [noted, hfresh, if_true, Function.update_self]
  have hcounted : WatcherOk stable
      { s with
        misses := s.noted t device.id (.missing reason)
        counts := Function.update s.counts device.id (s.counts device.id + 1)
        tick := some t } := by
    refine ⟨h.commits, fun id hid => ?_, ?_, ?_, ?_⟩
    · dsimp only at hid ⊢
      by_cases hne : id = device.id
      · rw [hne] at hid ⊢
        rw [hnoted hid, Function.update_self]
        exact Nat.succ_le_succ (h.counted device.id hid)
      · rw [Function.update_of_ne hne, misses_of_ne hne]
        exact h.counted id hid
    · rintro _ id ⟨⟩
      exact h.begun t id ht
    · rintro _ id ⟨⟩ hp
      exact h.answered t id ht hp
    · rintro _ entries pending device ⟨⟩ hp
      rw [hpoint] at hp
      cases hp
  -- the write that is decided here
  have hwaits : ∀ pending, pending.decidedFor = some device →
      stable ≤ s.counts device.id + 1 →
      WatcherOk stable (({ s with
        misses := s.noted t device.id (.missing reason)
        counts := Function.update s.counts device.id (s.counts device.id + 1) } :
          PhysicalDeviceWatcher).setPoint { t with group := group } (.waiting entries' pending)) := by
    intro pending hfor hstable
    refine ⟨hcounted.commits, hcounted.counted, ?_, ?_, ?_⟩
    · rintro _ id ⟨⟩
      exact h.begun t id ht
    · rintro _ id ⟨⟩ -
      exact h.answered t id ht hreading
    · rintro _ entries₁ pending₁ device₁ ⟨⟩ hp hfor₁ hbegun
      cases hp
      obtain rfl := Option.some.inj (hfor.symm.trans hfor₁)
      have hcommits := h.commits_of_begun ht hreading hbegun
      have hle := h.counted device.id hcommits
      have hnow := hnoted hcommits
      exact (by omega : stable ≤ s.noted t device.id (.missing reason)
        device.id)
  unfold PhysicalDeviceWatcher.missed
  dsimp only
  split
  · refine hcounted.setPoint (t := t) (u := { t with group := group }) rfl hreading rfl rfl ?_
    rintro _ _ ⟨⟩
  · rename_i hstable
    have hstable' := Nat.le_of_not_lt hstable
    split
    · split
      · refine hcounted.setPoint (t := t) (u := { t with group := group }) rfl hreading rfl rfl ?_
        rintro _ _ ⟨⟩
      · exact hwaits _ rfl hstable'
    · exact hwaits _ rfl hstable'

/-- A miss that does not count only adds to the fresh ones. -/
theorem uncounted (h : WatcherOk stable s) {t : WatcherTick} {group : List PhysicalDevice}
    {entries : List PresentPhysical} (ht : s.tick = some t) (hpoint : t.point = .observing entries)
    (device : PhysicalDevice) (reason : AbsentReason) {point : WatcherPoint}
    (hquiet : ∀ entries pending, point = .waiting entries pending → pending.decidedFor = none) :
    WatcherOk stable
      (({ s with misses := s.noted t device.id (.missing reason) } :
        PhysicalDeviceWatcher).setPoint { t with group := group } point) := by
  have hnoted : WatcherOk stable
      { s with misses := s.noted t device.id (.missing reason) } := by
    refine ⟨h.commits, fun id hid => Nat.le_trans (h.counted id hid) ?_, h.begun, h.answered, ?_⟩
    · by_cases hne : id = device.id
      · subst hne
        dsimp only [noted]
        split
        · rw [Function.update_self]
          exact Nat.le_succ _
        · exact Nat.le_refl _
      · have hsame : s.noted t device.id (.missing reason) id = s.misses id := misses_of_ne hne
        exact Nat.le_of_eq hsame.symm
    · intro t' entries' pending device' ht' hp
      obtain rfl := Option.some.inj (ht.symm.trans ht')
      rw [hpoint] at hp
      cases hp
  exact hnoted.setPoint (t := t) (u := { t with group := group }) ht (by simp [hpoint]) rfl rfl
    hquiet

theorem observe (h : WatcherOk stable s) : WatcherOk stable (s.observe stable) := by
  unfold PhysicalDeviceWatcher.observe
  split
  · exact h
  · rename_i t ht
    split
    · rename_i entries hpoint
      split
      · exact h.endTick
      · split
        · exact h.beginRead _ _
        · rename_i device group hgroup
          dsimp only
          split
          · rename_i osVersion hread
            rw [hread]
            exact h.present ht hpoint device osVersion
          · rename_i reason hread
            rw [hread]
            split
            · split
              · rename_i hcurrent
                exact h.missed ht hpoint hcurrent reason
              · exact h.uncounted ht hpoint device reason (by rintro _ _ ⟨⟩)
            · split
              · refine h.uncounted ht hpoint device reason ?_
                rintro _ _ ⟨⟩
                rfl
              · exact h.uncounted ht hpoint device reason (by rintro _ _ ⟨⟩)
    · exact h

/-! ### Writes, resets and commits -/

theorem write (h : WatcherOk stable s) (now : Int) (claimed written : Bool) :
    WatcherOk stable (s.write o now claimed written) := by
  unfold PhysicalDeviceWatcher.write
  split
  · exact h
  · rename_i t ht
    split
    · rename_i entries pending hpoint
      have hnext : WatcherOk stable (s.setPoint t (.observing entries)) :=
        h.setPoint ht (by simp [hpoint]) rfl rfl (by rintro _ _ ⟨⟩)
      dsimp only
      split
      · exact hnext
      · split
        · exact hnext
        · split
          · exact (hnext.withRegistry _).withAbsences _
          · exact hnext
    · exact h

theorem reset (h : WatcherOk stable s) {i : Nat} {deviceId : String}
    (hi : s.resets[i]? = some deviceId) :
    WatcherOk stable { s.reset deviceId with resets := s.resets.eraseIdx i } := by
  have hcount := count_eraseIdx hi
  refine ⟨fun id => ?_, fun id hid => ?_, h.begun, ?_, h.decided⟩
  · have hcommits := h.commits id
    have hone := hcount id
    dsimp only [PhysicalDeviceWatcher.reset]
    by_cases hne : id = deviceId
    · subst hne
      rw [if_pos rfl] at hone
      rw [Function.update_self]
      omega
    · rw [if_neg hne] at hone
      rw [Function.update_of_ne hne]
      omega
  · dsimp only [PhysicalDeviceWatcher.reset] at hid ⊢
    by_cases hne : id = deviceId
    · rw [hne, Function.update_self]
      exact Nat.zero_le _
    · rw [Function.update_of_ne hne] at hid ⊢
      exact h.counted id hid
  · intro t id ht hreading
    refine Nat.le_trans (h.answered t id ht hreading) ?_
    dsimp only [PhysicalDeviceWatcher.reset]
    by_cases hne : id = deviceId
    · rw [hne, Function.update_self]
      exact Nat.le_succ _
    · exact Nat.le_of_eq (Function.update_of_ne hne _ _).symm

/-- A commit to ready makes every count of the device wait for its reset. -/
theorem committedReady (h : WatcherOk stable s) (deviceId : String) :
    WatcherOk stable (s.committedReady deviceId) := by
  refine ⟨fun id => ?_, fun id hid => ?_, fun t id ht => ?_, h.answered, ?_⟩
  · have hcommits := h.commits id
    dsimp only [PhysicalDeviceWatcher.committedReady]
    rw [List.count_append, List.count_singleton]
    by_cases hne : id = deviceId
    · subst hne
      rw [Function.update_self]
      simp
      omega
    · rw [Function.update_of_ne hne]
      simp [Ne.symm hne]
      omega
  · have hcommits := h.commits id
    dsimp only [PhysicalDeviceWatcher.committedReady] at hid ⊢
    by_cases hne : id = deviceId
    · rw [hne] at hid hcommits
      rw [Function.update_self] at hid
      omega
    · rw [Function.update_of_ne hne] at hid ⊢
      exact h.counted id hid
  · have hbegun := h.begun t id ht
    refine ⟨hbegun.1, Nat.le_trans hbegun.2 ?_⟩
    dsimp only [PhysicalDeviceWatcher.committedReady]
    by_cases hne : id = deviceId
    · rw [hne, Function.update_self]
      exact Nat.le_succ _
    · exact Nat.le_of_eq (Function.update_of_ne hne _ _).symm
  · intro t entries pending device ht hpoint hfor hcurrent
    have hbegun := (h.begun t device.id ht).2
    dsimp only [PhysicalDeviceWatcher.committedReady] at hcurrent ⊢
    by_cases hne : device.id = deviceId
    · rw [hne] at hcurrent hbegun
      rw [Function.update_self] at hcurrent
      omega
    · rw [Function.update_of_ne hne] at hcurrent ⊢
      exact h.decided t entries pending device ht hpoint hfor hcurrent

theorem other (h : WatcherOk stable s) (now : Int) (call : Call) :
    WatcherOk stable (s.other o now call) := by
  unfold PhysicalDeviceWatcher.other
  split
  · exact h
  · rename_i r hr
    dsimp only
    split
    · exact (h.withRegistry r).committedReady _
    · exact h.withRegistry r

theorem step (h : WatcherOk stable s) (a : WatcherAct) : WatcherOk stable (s.step stable o a) := by
  cases a with
  | recordInterrupted => exact h.withInterrupted _
  | tick => exact h.startTick
  | answered entries => exact h.answer entries
  | observe => exact h.observe
  | write now claimed written => exact h.write now claimed written
  | reset i =>
    rw [PhysicalDeviceWatcher.step]
    split
    · exact h
    · rename_i deviceId hi
      exact h.reset hi
  | dispose => exact ⟨h.commits, h.counted, h.begun, h.answered, h.decided⟩
  | other now call => exact h.other now call

end WatcherOk

/-! ### Absences -/

/-- Every absence was written on enough fresh misses in a row. -/
def Founded (stable : Nat) (s : PhysicalDeviceWatcher) : Prop := ∀ e ∈ s.absences, stable ≤ e.2

/-- Only a write that was decided for a device makes one absent. -/
theorem decidedFor_of_absentBy {pending : WatcherWrite} {claimed : Bool} {call : Call}
    {deviceId : String} (hcall : s.callOf pending claimed = some call)
    (habsent : s.absentBy call = some deviceId) : ∃ device, pending.decidedFor = some device := by
  unfold callOf at hcall
  split at hcall
  · cases hcall
  · cases pending with
    | markAbsent device reason => exact ⟨device, rfl⟩
    | endLease device leaseId reason => exact ⟨device, rfl⟩
    | rewriteReason device reason =>
      dsimp only at hcall
      split at hcall
      · cases hcall
        cases habsent
      · cases hcall
    | reclaimReturned device osVersion => cases hcall

theorem Founded.write (hok : WatcherOk stable s) (h : Founded stable s) {now : Int}
    {claimed written : Bool} (hcurrent : s.isCurrent (.write now claimed written) = true) :
    Founded stable (s.write o now claimed written) := by
  unfold PhysicalDeviceWatcher.write
  split
  · exact h
  · rename_i t ht
    split
    · rename_i entries pending hpoint
      dsimp only
      split
      · exact h
      · rename_i call hcall
        split
        · exact h
        · split
          · rename_i hwritten
            subst hwritten
            intro e he
            cases habsent : s.absentBy call with
            | none =>
              rw [habsent] at he
              exact h e he
            | some deviceId =>
              rw [habsent] at he
              rcases List.mem_cons.mp he with rfl | he
              · -- the write is of the device it was decided for, not committed ready since
                obtain ⟨device, hfor⟩ := decidedFor_of_absentBy hcall habsent
                simp only [isCurrent, ht, hpoint, hfor, hcall, Option.bind_some, habsent,
                  Bool.not_true, Bool.false_or, Bool.and_eq_true, decide_eq_true_eq] at hcurrent
                obtain ⟨rfl, hbegun⟩ := hcurrent
                exact hok.decided t entries pending device ht hpoint hfor hbegun
              · exact h e he
          · exact h
    · exact h

theorem beginRead_absences (t : WatcherTick) (platforms : List Platform) :
    (s.beginRead t platforms).absences = s.absences := by
  cases platforms <;> rfl

theorem observe_absences : (s.observe stable).absences = s.absences := by
  unfold PhysicalDeviceWatcher.observe
  split
  · rfl
  · split
    · split
      · rfl
      · split
        · exact beginRead_absences _ _
        · dsimp only
          split
          · unfold PhysicalDeviceWatcher.present
            dsimp only
            split
            · rfl
            · split <;> rfl
          · split
            · split
              · unfold PhysicalDeviceWatcher.missed
                dsimp only
                split
                · rfl
                · split
                  · split <;> rfl
                  · rfl
              · rfl
            · split <;> rfl
    · rfl

theorem Founded.step (hok : WatcherOk stable s) (h : Founded stable s) {a : WatcherAct}
    (hcurrent : s.isCurrent a = true) : Founded stable (s.step stable o a) := by
  have hsame : ∀ {s' : PhysicalDeviceWatcher}, s'.absences = s.absences → Founded stable s' :=
    fun heq e he => h e (heq ▸ he)
  cases a with
  | recordInterrupted => exact hsame rfl
  | tick =>
    refine hsame ?_
    rw [PhysicalDeviceWatcher.step, PhysicalDeviceWatcher.startTick]
    split
    · rfl
    · exact beginRead_absences _ _
  | answered entries =>
    refine hsame ?_
    rw [PhysicalDeviceWatcher.step, PhysicalDeviceWatcher.answered]
    split
    · rfl
    · split
      · split
        · rfl
        · split
          · rfl
          · split
            · exact beginRead_absences _ _
            · rfl
      · rfl
  | observe => exact hsame observe_absences
  | write now claimed written => exact h.write hok hcurrent
  | reset i =>
    refine hsame ?_
    rw [PhysicalDeviceWatcher.step]
    split <;> rfl
  | dispose => exact hsame rfl
  | other now call =>
    refine hsame ?_
    rw [PhysicalDeviceWatcher.step, PhysicalDeviceWatcher.other]
    split
    · rfl
    · dsimp only
      split <;> rfl

end Watcher

/-! ### Every run -/

/-- In every run in which a write of an absence is of the device it was decided for, and no commit to
    ready of it falls between the begin of the read that decided and the write, every device the watcher
    makes absent had enough misses in a row, all begun since its last commit to ready. -/
theorem absent_after_fresh_misses (stableObservations : Nat) (o : RegistryOptions) (r : Registry)
    (acts : List WatcherAct)
    (hcurrent : AllSteps (PhysicalDeviceWatcher.step stableObservations o)
      (fun s a => s.isCurrent a = true) (.start r) acts) :
    ∀ e ∈ (run (PhysicalDeviceWatcher.step stableObservations o) (.start r) acts).absences,
      stableObservations ≤ e.2 := by
  have hinv := run_invariant_of_allSteps
    (I := fun s => WatcherOk stableObservations s ∧ Founded stableObservations s)
    (fun s a hstep h => ⟨h.1.step a, h.2.step h.1 hstep⟩) acts _
    ⟨.start r, fun _ he => by cases he⟩ hcurrent
  exact hinv.2

def plainPhone : Registry.PhysicalEnrollmentInput :=
  ⟨.ios, "udid_1", "iPhone 15", "17.0", .phone, []⟩

/-- An enrolled phone is not present in two reads. -/
def missedTwice : List WatcherAct :=
  [.other 1 (.enrollPhysical "dev_1" plainPhone), .reset 0,
    .tick, .answered (some []), .observe, .observe,
    .tick, .answered (some []), .observe]

theorem absent_after_fresh_misses_missedTwice :
    (run (PhysicalDeviceWatcher.step 2 shortRetention) (.start .empty)
      (missedTwice ++ [.write 3 false true])).absences = [("dev_1", 2)] ∧
    ∀ e ∈ (run (PhysicalDeviceWatcher.step 2 shortRetention) (.start .empty)
      (missedTwice ++ [.write 3 false true])).absences, 2 ≤ e.2 := by
  refine ⟨by decide +kernel, ?_⟩
  refine absent_after_fresh_misses 2 shortRetention .empty (missedTwice ++ [.write 3 false true]) ?_
  decide +kernel

/-- While the write waits for a maintenance to end, an admin enrols the phone again; the write still
    marks it absent. -/
theorem absent_after_reenrollment :
    ¬ ∀ (stableObservations : Nat) (o : RegistryOptions) (r : Registry) (acts : List WatcherAct),
      ∀ e ∈ (run (PhysicalDeviceWatcher.step stableObservations o) (.start r) acts).absences,
        stableObservations ≤ e.2 := by
  intro h
  have hall := h 2 shortRetention .empty (missedTwice ++
    [.other 2 (.reenrollPhysical "dev_1" plainPhone), .reset 0, .write 3 false true])
  revert hall
  decide +kernel

end Simlock.Leasing
