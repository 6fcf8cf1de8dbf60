import Simlock.Worker.InstallQueues

/-! Every call of the installer settles once, by its own install.

    A call is on the list of the one install it started or joined until it settles, and its timer is
    armed exactly so long (`CallsOk`). Settling takes it off the list, so a second settlement finds
    nothing; a run settles the calls of its own install only. What a run does to its points and states
    touches none of this (`SameCalls`). -/

namespace Simlock.Worker

open Simlock.Lib Simlock.Core

/-- The result is one that its source gives, and an install's is that of the call's own install. -/
def Settlement.Fits (x : Settlement) (install : Option Nat) : Prop :=
  match x.settledBy with
  | .door => install = none ∧ (x.result = .closed ∨ ∃ error, x.result = .failed error)
  | .stillNeeded => x.result = .notNeeded ∨ ∃ error, x.result = .failed error
  | .install n => install = some n ∧ x.result ≠ .notNeeded ∧ x.result ≠ .closed
  | .deadline => x.result = .timedOut
  | .close => x.result = .closed

theorem Settlement.fits_install {result : InstallEnd}
    (hresult : result ≠ .notNeeded ∧ result ≠ .closed) (c n : Nat) :
    Settlement.Fits ⟨c, result, .install n⟩ (some n) := ⟨rfl, hresult⟩

theorem Settlement.fits_stillNeeded {result : InstallEnd}
    (hresult : result = .notNeeded ∨ ∃ error, result = .failed error) (c : Nat)
    (install : Option Nat) : Settlement.Fits ⟨c, result, .stillNeeded⟩ install := hresult

namespace ComponentInstaller

variable {o : RegistryOptions} {p : InstallerOptions} {s s' s'' : ComponentInstaller}

/-- An install as its calls see it. -/
def openOn (s : ComponentInstaller) (n : Nat) : Option (List Nat × Platform × String) :=
  s.installs[n]?.map fun i => (i.calls, i.platform, i.component)

/-- A call without the mark of its check. -/
def callOf (s : ComponentInstaller) (c : Nat) : Option (InstallRequest × Option Nat × Option Int) :=
  s.calls[c]?.map fun call => (call.request, call.install, call.timer)

def settledCalls (s : ComponentInstaller) : List Nat := s.settlements.map Settlement.call

/-- What holds between the calls, the installs and the settlements. -/
structure CallsOk (s : ComponentInstaller) : Prop where
  listed : ∀ n calls platform component, s.openOn n = some (calls, platform, component) →
    calls.Nodup ∧ ∀ c ∈ calls, ∃ request due, s.callOf c = some (request, some n, some due)
  armed : ∀ c request install due, s.callOf c = some (request, install, some due) →
    ∃ n calls platform component, install = some n ∧
      s.openOn n = some (calls, platform, component) ∧ c ∈ calls
  own : ∀ c request n due, s.callOf c = some (request, some n, due) →
    ∃ calls, s.openOn n = some (calls, request.platform, request.component)
  once : s.settledCalls.Nodup
  settled : ∀ c request install due, s.callOf c = some (request, install, due) →
    (c ∈ s.settledCalls ↔ due = none)
  known : ∀ x ∈ s.settlements, ∃ request install, s.callOf x.call = some (request, install, none) ∧
    x.Fits install

/-! ### What touches no call -/

/-- The calls, the lists they are on and the settlements are the same. -/
structure SameCalls (s s' : ComponentInstaller) : Prop where
  openOn : ∀ n, s'.openOn n = s.openOn n
  callOf : ∀ c, s'.callOf c = s.callOf c
  length : s'.calls.length = s.calls.length
  settlements : s'.settlements = s.settlements

theorem SameCalls.refl (s : ComponentInstaller) : SameCalls s s :=
  ⟨fun _ => rfl, fun _ => rfl, rfl, rfl⟩

theorem SameCalls.trans (h : SameCalls s s') (h' : SameCalls s' s'') : SameCalls s s'' :=
  ⟨fun n => (h'.openOn n).trans (h.openOn n), fun c => (h'.callOf c).trans (h.callOf c),
    h'.length.trans h.length, h'.settlements.trans h.settlements⟩

/-- Nothing of the installs, the calls or the settlements differs. -/
theorem SameCalls.of_same (hi : s'.installs = s.installs) (hc : s'.calls = s.calls)
    (hs : s'.settlements = s.settlements) : SameCalls s s' :=
  ⟨fun n => by rw [ComponentInstaller.openOn, hi]; rfl,
    fun c => by rw [ComponentInstaller.callOf, hc]; rfl, congrArg List.length hc, hs⟩

theorem CallsOk.same (h : CallsOk s) (e : SameCalls s s') : CallsOk s' := by
  have hsettled : s'.settledCalls = s.settledCalls := congrArg (List.map Settlement.call) e.settlements
  refine ⟨fun n calls platform component hn => ?_, fun c request install due hc => ?_,
    fun c request n due hc => ?_, hsettled ▸ h.once, fun c request install due hc => ?_,
    fun x hx => ?_⟩
  · rw [e.openOn] at hn
    obtain ⟨hnodup, hcalls⟩ := h.listed n calls platform component hn
    refine ⟨hnodup, fun c hc => ?_⟩
    rw [e.callOf]
    exact hcalls c hc
  · rw [e.callOf] at hc
    obtain ⟨n, calls, platform, component, hn, hopen, hmem⟩ := h.armed c request install due hc
    exact ⟨n, calls, platform, component, hn, (e.openOn n).trans hopen, hmem⟩
  · rw [e.callOf] at hc
    obtain ⟨calls, hopen⟩ := h.own c request n due hc
    exact ⟨calls, (e.openOn n).trans hopen⟩
  · rw [e.callOf] at hc
    rw [hsettled]
    exact h.settled c request install due hc
  · rw [e.settlements] at hx
    rw [e.callOf]
    exact h.known x hx

theorem sameCalls_setInstall (i' : Install) {n : Nat} {i : Install} (hi : s.installs[n]? = some i)
    (hcalls : i'.calls = i.calls) (hplatform : i'.platform = i.platform)
    (hcomponent : i'.component = i.component) : SameCalls s (s.setInstall n i') := by
  refine ⟨fun m => map_getElem?_set_same _ hi ?_ m, fun _ => rfl, rfl, rfl⟩
  rw [hcalls, hplatform, hcomponent]

theorem checkNext_calls (cs : List Nat) (calls : List InstallCall) (c : Nat) :
    (checkNext calls cs).2[c]?.map (fun call => (call.request, call.install, call.timer)) =
      calls[c]?.map fun call => (call.request, call.install, call.timer) := by
  induction cs generalizing calls with
  | nil => rfl
  | cons d rest ih =>
    unfold checkNext
    split
    · rename_i call hcall
      have hset := map_getElem?_set_same { call with checked := true } hcall
        (f := fun call => (call.request, call.install, call.timer)) rfl c
      split
      · exact ih calls
      · dsimp only
        split
        · exact hset
        · exact (ih _).trans hset
    · exact ih calls

theorem checkNext_length (cs : List Nat) (calls : List InstallCall) :
    (checkNext calls cs).2.length = calls.length := by
  induction cs generalizing calls with
  | nil => rfl
  | cons d rest ih =>
    unfold checkNext
    split
    · split
      · exact ih calls
      · dsimp only
        split
        · exact List.length_set
        · exact (ih _).trans List.length_set
    · exact ih calls

theorem sameCalls_checkStillNeeded (n : Nat) : SameCalls s (s.checkStillNeeded n) := by
  unfold checkStillNeeded
  split
  · rename_i i hi
    have hset := sameCalls_setInstall { i with point := ((checkNext s.calls i.calls).1.map RunPoint.checking).getD .checked } (s := s)
      hi rfl rfl rfl
    exact ⟨hset.openOn, checkNext_calls i.calls s.calls, checkNext_length i.calls s.calls, rfl⟩
  · exact .refl s

theorem sameCalls_pump (platform : Platform) : SameCalls s (s.pump platform) := by
  unfold pump
  split
  · split
    · rename_i i hi
      split
      · exact (sameCalls_setInstall { i with state := .front } hi rfl rfl rfl).trans
          (sameCalls_checkStillNeeded _)
      · exact .refl s
    · exact .refl s
  · exact .refl s

theorem sameCalls_finish (n : Nat) : SameCalls s (s.finish n) := by
  unfold finish
  split
  · rename_i i hi
    refine SameCalls.trans ?_ (sameCalls_pump _)
    have hset := sameCalls_setInstall { i with state := .ended, point := .over } hi rfl rfl rfl
    exact ⟨hset.openOn, fun _ => rfl, rfl, rfl⟩
  · exact .refl s

theorem sameCalls_waitAt (n : Nat) (point : RunPoint) (state : InstallState → InstallState) :
    SameCalls s (s.waitAt n point state) := by
  unfold waitAt
  split
  · rename_i i hi
    exact sameCalls_setInstall { i with point := point, state := state i.state } hi rfl rfl rfl
  · exact .refl s

theorem sameCalls_goOn (n : Nat) (point : RunPoint) (state : InstallState → InstallState) :
    SameCalls s (s.goOn n point state) := by
  unfold goOn
  split
  · exact sameCalls_finish n
  · exact sameCalls_waitAt n point state

theorem sameCalls_endRemoval (m : Nat) (x : Removal) (how : RemovalEnd) :
    SameCalls s (s.endRemoval m x how) := by
  unfold endRemoval
  refine SameCalls.trans ?_ (sameCalls_pump _)
  exact .of_same rfl rfl rfl

/-! ### A call settles -/

/-- What is left of the call that settles, and of its install. -/
theorem settled_views {n c : Nat} {i : Install} {call : InstallRequest × Option Nat × Option Int}
    (hi : s.installs[n]? = some i) (hc : c ∈ i.calls) (hcall : s.callOf c = some call)
    (result : InstallEnd) (settledBy : SettledBy) :
    (∀ m, (s.settle n c result settledBy).openOn m =
      if m = n then some (i.calls.erase c, i.platform, i.component) else s.openOn m) ∧
    (∀ d, (s.settle n c result settledBy).callOf d =
      if d = c then some (call.1, call.2.1, none) else s.callOf d) ∧
    (s.settle n c result settledBy).calls.length = s.calls.length ∧
    (s.settle n c result settledBy).settlements = s.settlements ++ [⟨c, result, settledBy⟩] := by
  simp only [settle, hi, if_pos hc]
  refine ⟨map_getElem?_set hi _, fun d => ?_, List.length_modify .., trivial⟩
  obtain ⟨x, hx, rfl⟩ := Option.map_eq_some_iff.mp hcall
  simp only [callOf, List.getElem?_modify]
  by_cases hd : d = c
  · subst hd
    simp [hx]
  · rw [if_neg hd]
    cases s.calls[d]? <;> simp [Ne.symm hd]

/-- A call on its install's list settles: it leaves the list, and its timer stops. -/
theorem CallsOk.settle (h : CallsOk s) (n c : Nat) (result : InstallEnd) {settledBy : SettledBy}
    (hfits : Settlement.Fits ⟨c, result, settledBy⟩ (some n)) :
    CallsOk (s.settle n c result settledBy) := by
  cases hi : s.installs[n]? with
  | none =>
    simp only [ComponentInstaller.settle, hi]
    exact h
  | some i =>
    by_cases hc : c ∈ i.calls
    · have hopen : s.openOn n = some (i.calls, i.platform, i.component) := by
        simp [ComponentInstaller.openOn, hi]
      obtain ⟨hnodup, hlisted⟩ := h.listed n _ _ _ hopen
      obtain ⟨request, due, hcall⟩ := hlisted c hc
      obtain ⟨hopen', hcall', -, hsettlements⟩ := settled_views hi hc hcall result settledBy
      have hsettled : (s.settle n c result settledBy).settledCalls = s.settledCalls ++ [c] := by
        simp [settledCalls, hsettlements]
      have hfresh : c ∉ s.settledCalls := by simp [h.settled c _ _ _ hcall]
      refine ⟨fun m calls platform component hm => ?_, fun d request' install' due' hd => ?_,
        fun d request' m due' hd => ?_, ?_, fun d request' install' due' hd => ?_, fun x hx => ?_⟩
      · rw [hopen'] at hm
        split at hm
        · rename_i hmn
          obtain ⟨rfl, rfl, rfl⟩ := by simpa using hm
          refine ⟨hnodup.erase c, fun d hd => ?_⟩
          obtain ⟨hne, hd⟩ := hnodup.mem_erase_iff.mp hd
          rw [hcall', if_neg hne, hmn]
          exact hlisted d hd
        · rename_i hmn
          obtain ⟨hnodup', hlisted'⟩ := h.listed m _ _ _ hm
          refine ⟨hnodup', fun d hd => ?_⟩
          obtain ⟨request', due', hd'⟩ := hlisted' d hd
          have hne : d ≠ c := by
            rintro rfl
            simp only [hcall, Option.some.injEq, Prod.mk.injEq] at hd'
            exact hmn hd'.2.1.symm
          rw [hcall', if_neg hne]
          exact ⟨request', due', hd'⟩
      · rw [hcall'] at hd
        split at hd
        · simp at hd
        · rename_i hne
          obtain ⟨m, calls, platform, component, hm, hopenm, hmem⟩ := h.armed d _ _ _ hd
          by_cases hmn : m = n
          · subst hmn
            simp only [hopen, Option.some.injEq, Prod.mk.injEq] at hopenm
            obtain ⟨rfl, rfl, rfl⟩ := hopenm
            exact ⟨m, _, _, _, hm, (hopen' m).trans (if_pos rfl),
              (List.mem_erase_of_ne hne).mpr hmem⟩
          · exact ⟨m, _, _, _, hm, (hopen' m).trans ((if_neg hmn).trans hopenm), hmem⟩
      · have hown : ∃ calls, s.openOn m = some (calls, request'.platform, request'.component) := by
          rw [hcall'] at hd
          split at hd
          · simp only [Option.some.injEq, Prod.mk.injEq] at hd
            obtain ⟨rfl, hm, -⟩ := hd
            exact h.own c _ m _ (hm ▸ hcall)
          · exact h.own d _ m _ hd
        obtain ⟨calls, hm⟩ := hown
        rw [hopen']
        split
        · rename_i hmn
          subst hmn
          simp only [hopen, Option.some.injEq, Prod.mk.injEq] at hm
          exact ⟨_, by rw [hm.2.1, hm.2.2]⟩
        · exact ⟨calls, hm⟩
      · rw [hsettled]
        refine List.nodup_append.mpr ⟨h.once, List.nodup_singleton _, ?_⟩
        rintro a ha b hb rfl
        exact hfresh (List.mem_singleton.mp hb ▸ ha)
      · rw [hcall'] at hd
        rw [hsettled, List.mem_append, List.mem_singleton]
        split at hd
        · rename_i hdc
          simp only [Option.some.injEq, Prod.mk.injEq] at hd
          simp [hdc, hd.2.2.symm]
        · rename_i hdc
          simp only [hdc, or_false]
          exact h.settled d _ _ _ hd
      · rw [hsettlements, List.mem_append, List.mem_singleton] at hx
        rcases hx with hx | rfl
        · obtain ⟨request', install', hxc, hxby⟩ := h.known x hx
          have hne : x.call ≠ c := by
            intro he
            simp [he, hcall] at hxc
          rw [hcall', if_neg hne]
          exact ⟨request', install', hxc, hxby⟩
        · exact ⟨request, some n, (hcall' c).trans (if_pos rfl), hfits⟩
    · simp only [ComponentInstaller.settle, hi, if_neg hc]
      exact h

/-! ### A call arrives -/

/-- A call refused at the door is settled there. -/
theorem CallsOk.refuse (h : CallsOk s) (request : InstallRequest) {result : InstallEnd}
    (hresult : result = .closed ∨ ∃ error, result = .failed error) :
    CallsOk (s.refuse request result) := by
  have hcall : ∀ d, (s.refuse request result).callOf d =
      if d = s.calls.length then some (request, none, none) else s.callOf d :=
    map_getElem?_append_one s.calls _ _
  have hsettled : (s.refuse request result).settledCalls = s.settledCalls ++ [s.calls.length] := by
    simp [settledCalls, ComponentInstaller.refuse]
  have hfresh : s.calls.length ∉ s.settledCalls := by
    intro hin
    obtain ⟨x, hx, he⟩ := List.mem_map.mp hin
    obtain ⟨request', install', hxc, -⟩ := h.known x hx
    simp [callOf, he] at hxc
  have hold : ∀ {d v}, s.callOf d = some v → d ≠ s.calls.length := by
    rintro d v hd rfl
    simp [callOf] at hd
  refine ⟨fun m calls platform component hm => ?_, fun d request' install' due' hd => ?_,
    fun d request' m due' hd => ?_, ?_, fun d request' install' due' hd => ?_, fun x hx => ?_⟩
  · obtain ⟨hnodup, hlisted⟩ := h.listed m calls platform component hm
    refine ⟨hnodup, fun d hd => ?_⟩
    obtain ⟨request', due', hd'⟩ := hlisted d hd
    exact ⟨request', due', (hcall d).trans ((if_neg (hold hd')).trans hd')⟩
  · rw [hcall] at hd
    split at hd
    · simp at hd
    · exact h.armed d _ _ _ hd
  · rw [hcall] at hd
    split at hd
    · simp at hd
    · exact h.own d _ m _ hd
  · rw [hsettled]
    refine List.nodup_append.mpr ⟨h.once, List.nodup_singleton _, ?_⟩
    rintro a ha b hb rfl
    exact hfresh (List.mem_singleton.mp hb ▸ ha)
  · rw [hcall] at hd
    rw [hsettled, List.mem_append, List.mem_singleton]
    split at hd
    · rename_i hdc
      simp only [Option.some.injEq, Prod.mk.injEq] at hd
      simp [hdc, hd.2.2.symm]
    · rename_i hdc
      simp only [hdc, or_false]
      exact h.settled d _ _ _ hd
  · rcases List.mem_append.mp hx with hx | hx
    · obtain ⟨request', install', hxc, hxby⟩ := h.known x hx
      exact ⟨request', install', (hcall _).trans ((if_neg (hold hxc)).trans hxc), hxby⟩
    · obtain rfl := List.mem_singleton.mp hx
      exact ⟨request, none, (hcall _).trans (if_pos rfl), rfl, hresult⟩

/-- A call on an install of its component is on that install's list, and its timer is armed. -/
theorem CallsOk.admitted (h : CallsOk s) (request : InstallRequest) (now : Int) {n : Nat}
    {calls : List Nat} (hn : s.openOn n = some (calls, request.platform, request.component)) :
    CallsOk (s.admitRequest p request now n) := by
  have hcall : ∀ d, (s.admitRequest p request now n).callOf d =
      if d = s.calls.length then some (request, some n, some (now + p.timeoutMs))
      else s.callOf d := map_getElem?_append_one s.calls _ _
  have hopen : ∀ m, (s.admitRequest p request now n).openOn m =
      if m = n then some (calls ++ [s.calls.length], request.platform, request.component)
      else s.openOn m := by
    intro m
    obtain ⟨i, hi, he⟩ := Option.map_eq_some_iff.mp hn
    obtain ⟨rfl, hplatform, hcomponent⟩ := by simpa using he
    simp only [openOn, ComponentInstaller.admitRequest, List.getElem?_modify]
    by_cases hm : m = n
    · subst hm
      simp [hi, hplatform, hcomponent]
    · rw [if_neg hm]
      cases s.installs[m]? <;> simp [Ne.symm hm]
  have hold : ∀ {d v}, s.callOf d = some v → d ≠ s.calls.length := by
    rintro d v hd rfl
    simp [callOf] at hd
  have hsettled : (s.admitRequest p request now n).settledCalls = s.settledCalls := rfl
  have hfresh : s.calls.length ∉ s.settledCalls := by
    intro hin
    obtain ⟨x, hx, he⟩ := List.mem_map.mp hin
    obtain ⟨request', install', hxc, -⟩ := h.known x hx
    exact hold hxc he
  obtain ⟨hnodup, hlisted⟩ := h.listed n calls _ _ hn
  refine ⟨fun m calls' platform component hm => ?_, fun d request' install' due' hd => ?_,
    fun d request' m due' hd => ?_, hsettled ▸ h.once, fun d request' install' due' hd => ?_,
    fun x hx => ?_⟩
  · rw [hopen] at hm
    split at hm
    · rename_i hmn
      simp only [Option.some.injEq, Prod.mk.injEq] at hm
      obtain ⟨rfl, -, -⟩ := hm
      refine ⟨List.nodup_append.mpr ⟨hnodup, List.nodup_singleton _, ?_⟩, fun d hd => ?_⟩
      · rintro a ha b hb rfl
        obtain ⟨request', due', ha'⟩ := hlisted a ha
        exact hold ha' (List.mem_singleton.mp hb)
      · rw [hmn]
        rcases List.mem_append.mp hd with hd | hd
        · obtain ⟨request', due', hd'⟩ := hlisted d hd
          exact ⟨request', due', (hcall d).trans ((if_neg (hold hd')).trans hd')⟩
        · exact ⟨_, _, (hcall d).trans (if_pos (List.mem_singleton.mp hd))⟩
    · obtain ⟨hnodup', hlisted'⟩ := h.listed m calls' platform component hm
      refine ⟨hnodup', fun d hd => ?_⟩
      obtain ⟨request', due', hd'⟩ := hlisted' d hd
      exact ⟨request', due', (hcall d).trans ((if_neg (hold hd')).trans hd')⟩
  · rw [hcall] at hd
    split at hd
    · rename_i hdc
      simp only [Option.some.injEq, Prod.mk.injEq] at hd
      refine ⟨n, _, _, _, hd.2.1.symm, (hopen n).trans (if_pos rfl), ?_⟩
      simp [hdc]
    · obtain ⟨m, calls', platform, component, hm, hopenm, hmem⟩ := h.armed d _ _ _ hd
      by_cases hmn : m = n
      · subst hmn
        simp only [hn, Option.some.injEq, Prod.mk.injEq] at hopenm
        obtain ⟨rfl, rfl, rfl⟩ := hopenm
        exact ⟨m, _, _, _, hm, (hopen m).trans (if_pos rfl), List.mem_append_left _ hmem⟩
      · exact ⟨m, _, _, _, hm, (hopen m).trans ((if_neg hmn).trans hopenm), hmem⟩
  · have hown : ∃ calls', s.openOn m = some (calls', request'.platform, request'.component) := by
      rw [hcall] at hd
      split at hd
      · simp only [Option.some.injEq, Prod.mk.injEq] at hd
        obtain ⟨rfl, rfl, -⟩ := hd
        exact ⟨calls, hn⟩
      · exact h.own d _ m _ hd
    obtain ⟨calls', hm⟩ := hown
    rw [hopen]
    split
    · rename_i hmn
      subst hmn
      simp only [hn, Option.some.injEq, Prod.mk.injEq] at hm
      exact ⟨_, by rw [hm.2.1, hm.2.2]⟩
    · exact ⟨calls', hm⟩
  · rw [hcall] at hd
    rw [hsettled]
    split at hd
    · rename_i hdc
      simp only [Option.some.injEq, Prod.mk.injEq] at hd
      rw [hdc, ← hd.2.2]
      simp [hfresh]
    · exact h.settled d _ _ _ hd
  · obtain ⟨request', install', hxc, hxby⟩ := h.known x hx
    exact ⟨request', install', (hcall _).trans ((if_neg (hold hxc)).trans hxc), hxby⟩

theorem enqueue_openOn (request : InstallRequest) (now : Int) (m : Nat) :
    (s.enqueue request now).openOn m = if m = s.installs.length then
      some ([], request.platform, request.component) else s.openOn m :=
  map_getElem?_append_one s.installs _ _ m

theorem CallsOk.enqueue (h : CallsOk s) (request : InstallRequest) (now : Int) :
    CallsOk (s.enqueue request now) := by
  have hold : ∀ {m v}, s.openOn m = some v → m ≠ s.installs.length := by
    rintro m v hm rfl
    simp [openOn] at hm
  refine ⟨fun m calls platform component hm => ?_, fun d request' install' due' hd => ?_,
    fun d request' m due' hd => ?_, h.once, h.settled, h.known⟩
  · rw [enqueue_openOn] at hm
    split at hm
    · simp only [Option.some.injEq, Prod.mk.injEq] at hm
      obtain ⟨rfl, -, -⟩ := hm
      exact ⟨.nil, nofun⟩
    · exact h.listed m calls platform component hm
  · obtain ⟨m, calls, platform, component, hm, hopenm, hmem⟩ := h.armed d _ _ _ hd
    exact ⟨m, calls, platform, component, hm,
      (enqueue_openOn ..).trans ((if_neg (hold hopenm)).trans hopenm), hmem⟩
  · obtain ⟨calls, hm⟩ := h.own d _ m _ hd
    exact ⟨calls, (enqueue_openOn ..).trans ((if_neg (hold hm)).trans hm)⟩

/-! ### Moves -/

/-- What a part of a step does to the calls. -/
inductive CallMove : ComponentInstaller → ComponentInstaller → Prop where
  | same {s s' : ComponentInstaller} (e : SameCalls s s') : CallMove s s'
  | settle {s : ComponentInstaller} (n c : Nat) (result : InstallEnd) (settledBy : SettledBy)
    (hfits : Settlement.Fits ⟨c, result, settledBy⟩ (some n)) :
    CallMove s (s.settle n c result settledBy)
  | refuse {s : ComponentInstaller} (request : InstallRequest) (result : InstallEnd)
    (hresult : result = .closed ∨ ∃ error, result = .failed error) :
    CallMove s (s.refuse request result)
  | admitted {s : ComponentInstaller} (p : InstallerOptions) (request : InstallRequest) (now : Int) (n : Nat)
    (calls : List Nat) (hn : s.openOn n = some (calls, request.platform, request.component)) :
    CallMove s (s.admitRequest p request now n)
  | enqueue {s : ComponentInstaller} (request : InstallRequest) (now : Int) : CallMove s (s.enqueue request now)

theorem CallsOk.move (h : CallsOk s) (m : CallMove s s') : CallsOk s' := by
  cases m with
  | same e => exact h.same e
  | settle n c result settledBy hfits => exact h.settle n c result hfits
  | refuse request result hresult => exact h.refuse request hresult
  | admitted p request now n calls hn => exact h.admitted request now hn
  | enqueue request now => exact h.enqueue request now

/-- What a step does to the calls. -/
abbrev CallMoves := Relation.ReflTransGen CallMove

theorem CallsOk.moves (h : CallsOk s) (m : CallMoves s s') : CallsOk s' := by
  induction m with
  | refl => exact h
  | tail _ m ih => exact ih.move m

theorem settlements_settle (n c : Nat) (result : InstallEnd) (settledBy : SettledBy) :
    s.settlements <+: (s.settle n c result settledBy).settlements := by
  unfold ComponentInstaller.settle
  split
  · split
    · exact List.prefix_append _ _
    · exact List.prefix_rfl
  · exact List.prefix_rfl

/-- Settlements are only added. -/
theorem CallMove.settlements (m : CallMove s s') : s.settlements <+: s'.settlements := by
  cases m with
  | same e => exact e.settlements ▸ List.prefix_rfl
  | settle n c result settledBy hfits => exact settlements_settle n c result settledBy
  | refuse request result hresult => exact List.prefix_append _ _
  | admitted p request now n calls hn => exact List.prefix_rfl
  | enqueue request now => exact List.prefix_rfl

theorem CallMoves.same (h : CallMoves s s') (e : SameCalls s' s'') : CallMoves s s'' :=
  h.tail (.same e)

theorem CallMoves.settle (h : CallMoves s s') (n c : Nat) (result : InstallEnd)
    {settledBy : SettledBy} (hfits : Settlement.Fits ⟨c, result, settledBy⟩ (some n)) :
    CallMoves s (s'.settle n c result settledBy) := h.tail (.settle n c result settledBy hfits)

theorem CallMoves.settleAll (h : CallMoves s s') (n : Nat) (result : InstallEnd) {settledBy : SettledBy}
    (hfits : ∀ c, Settlement.Fits ⟨c, result, settledBy⟩ (some n)) :
    CallMoves s (s'.settleAll n result settledBy) := by
  have hfold : ∀ (calls : List Nat) (s' : ComponentInstaller), CallMoves s s' →
      CallMoves s (calls.foldl (fun s c => s.settle n c result settledBy) s') := by
    intro calls
    induction calls with
    | nil => exact fun s hs => hs
    | cons c calls ih => exact fun s hs => ih _ (hs.settle n c result (hfits c))
  unfold ComponentInstaller.settleAll
  split
  · exact hfold _ s' h
  · exact h

theorem CallMoves.endRun (h : CallMoves s s') (n : Nat) {result : InstallEnd}
    (hresult : result ≠ .notNeeded ∧ result ≠ .closed) : CallMoves s (s'.endRun n result) :=
  (h.settleAll n result fun c => Settlement.fits_install hresult c n).same (sameCalls_finish n)

/-- The install a call joins is of its platform and component. -/
theorem joinable_openOn (h : QueuesOk none s) {request : InstallRequest} {n : Nat}
    (hn : s.joinable request = some n) :
    ∃ calls, s.openOn n = some (calls, request.platform, request.component) := by
  have hfound := List.find?_some hn
  obtain ⟨i, hi, hcond⟩ := (Option.any_eq_true _ _).mp hfound
  have hcomponent : i.component = request.component := by simp at hcond; exact hcond.1
  obtain ⟨_, _, hstatus, -⟩ := (h.mem _ _).mp (List.mem_of_find?_eq_some hn)
  have hplatform : i.platform = request.platform := by
    simp only [statusOf, hi, Option.map_some, Option.some.injEq, Prod.mk.injEq] at hstatus
    exact hstatus.1
  exact ⟨i.calls, by simp [openOn, hi, hcomponent, hplatform]⟩

theorem CallMoves.installs (h : CallMoves s s') (hq : QueuesOk none s') (request : InstallRequest)
    (now : Int) : CallMoves s (s'.install p request now) := by
  unfold ComponentInstaller.install
  split
  · exact h.tail (.refuse request _ (.inl rfl))
  · split
    · split
      · rename_i n hn
        obtain ⟨calls, hopen⟩ := joinable_openOn hq hn
        exact (h.tail (.admitted p request now n calls hopen)).tail (.same (sameCalls_pump _))
      · have hopen := (enqueue_openOn (s := s') request now s'.installs.length).trans (if_pos rfl)
        exact ((h.tail (.enqueue request now)).tail (.admitted p request now _ [] hopen)).tail
          (.same (sameCalls_pump _))
    · exact h.tail (.refuse request _ (.inr ⟨_, rfl⟩))

/-! ### Steps -/

theorem CallMoves.answers (h : CallMoves s s') (n : Nat) (answer : Answer Bool) :
    CallMoves s (s'.answered n answer) := by
  unfold answered
  split
  · split
    · exact h.same (sameCalls_checkStillNeeded n)
    · exact (h.settle n _ _ (Settlement.fits_stillNeeded (.inl rfl) _ _)).same
        (sameCalls_checkStillNeeded n)
    · exact (h.settle n _ _ (Settlement.fits_stillNeeded (.inr ⟨_, rfl⟩) _ _)).same
        (sameCalls_checkStillNeeded n)
  · exact h

theorem CallMoves.recordeds (h : CallMoves s s') (n : Nat) (now : Int) (receipt : Entries)
    (writable : Bool) : CallMoves s (s'.recorded o n now receipt writable) := by
  unfold recorded
  split
  · split
    · rename_i version _
      split
      · split
        · rename_i r _
          split
          · have hr : CallMoves s { s' with registry := r } := h.same (.of_same rfl rfl rfl)
            have hfits : ∀ c, Settlement.Fits ⟨c, .installed version, .install n⟩ (some n) :=
              fun _ => ⟨rfl, by simp, by simp⟩
            exact (hr.settleAll n _ hfits).same (sameCalls_waitAt n _ _)
          · exact h.endRun n ⟨by simp, by simp⟩
        · exact h.endRun n ⟨by simp, by simp⟩
      · exact h.endRun n ⟨by simp, by simp⟩
    · exact h
  · exact h

theorem CallMoves.expires (h : CallMoves s s') (c : Nat) (now : Int) : CallMoves s (s'.expire c now) := by
  unfold ComponentInstaller.expire
  split
  · split
    · split
      · split
        · rename_i n _ _ i hi
          split
          · have hset := sameCalls_setInstall { i with state := .ended } hi rfl rfl rfl
            exact (h.same hset).settleAll n _ fun _ => ⟨rfl, nofun, nofun⟩
          · exact h.settle n c _ rfl
        · exact h
      · exact h
    · exact h
  · exact h

theorem CallMoves.closes (h : CallMoves s s') : CallMoves s s'.close := by
  have hfold : ∀ (ns : List Nat) (s' : ComponentInstaller), CallMoves s s' →
      CallMoves s (ns.foldl (fun s n => s.settleAll n .closed .close) s') := by
    intro ns
    induction ns with
    | nil => exact fun s hs => hs
    | cons n ns ih => exact fun s hs => ih _ (hs.settleAll n _ fun _ => rfl)
  have hclosed : CallMoves s { s' with closed := true } := h.same (.of_same rfl rfl rfl)
  exact hfold _ _ hclosed

theorem sameCalls_removes (m : Nat) (listing : Answer (List DriverComponent))
    (driver : Answer Unit) (now : Int) (writable : Bool) :
    SameCalls s (s.removes o m listing driver now writable) := by
  have hset : ∀ x, SameCalls s (s.setRemoval m x) := fun _ => .of_same rfl rfl rfl
  unfold removes
  split
  · dsimp only
    split
    · unfold listed
      split
      · exact hset _
      · split
        · exact hset _
        · dsimp only
          split
          · exact hset _
          · exact hset _
    · unfold takeTurn
      dsimp only
      split
      · exact hset _
      · split
        · exact hset _
        · split
          · exact hset _
          · exact .of_same rfl rfl rfl
    · unfold counted
      dsimp only
      split
      · exact hset _
      · exact hset _
    · split
      · exact hset _
      · exact hset _
    · split
      · exact .of_same rfl rfl rfl
      · exact hset _
    · exact sameCalls_endRemoval _ _ _
    · exact .refl s
  · exact .refl s

theorem sameCalls_provisions (k : Nat) (baselineKnown : Bool) (driver : Answer DriverData)
    (id driverDeviceId : String) (now : Int) (writable : Bool) :
    SameCalls s (s.provisions_ o k baselineKnown driver id driverDeviceId now writable) := by
  unfold provisions_
  split
  · split
    · split
      · exact .of_same rfl rfl rfl
      · exact .of_same rfl rfl rfl
    · split
      · exact .of_same rfl rfl rfl
      · exact .of_same rfl rfl rfl
    · split
      · split
        · exact .of_same rfl rfl rfl
        · exact .of_same rfl rfl rfl
      · exact .of_same rfl rfl rfl
    · exact .refl s
  · exact .refl s

theorem CallMoves.step (h : CallMoves s s') (hq : QueuesOk none s') (a : Action) :
    CallMoves s (s'.step o p a) := by
  cases a with
  | install request now => exact h.installs hq request now
  | answered n answer => exact h.answers n answer
  | checksDone n =>
    simp only [ComponentInstaller.step, checksDone]
    split
    · exact h.same (sameCalls_goOn n _ _)
    · exact h
  | found n answer =>
    simp only [ComponentInstaller.step, found]
    split
    · split
      · exact h.same (sameCalls_goOn n _ _)
      · exact h.endRun n ⟨by simp, by simp⟩
      · exact h.endRun n ⟨by simp, by simp⟩
    · exact h
  | reserved n answer =>
    simp only [ComponentInstaller.step, reserved]
    split
    · split
      · exact h.same (sameCalls_goOn n _ _)
      · exact h.endRun n ⟨by simp, by simp⟩
    · exact h
  | drove n answer =>
    simp only [ComponentInstaller.step, drove]
    split
    · split
      · exact h.same (sameCalls_waitAt n _ _)
      · rename_i version
        have hfits : ∀ c, Settlement.Fits ⟨c, .alreadyInstalled version, .install n⟩ (some n) :=
          fun _ => ⟨rfl, by simp, by simp⟩
        exact (h.settleAll n _ hfits).same (sameCalls_waitAt n _ _)
      · exact h.endRun n ⟨by simp, by simp⟩
    · exact h
  | recorded n now receipt writable => exact h.recordeds n now receipt writable
  | driverDone n =>
    simp only [ComponentInstaller.step, driverDone]
    split
    · exact h.same (sameCalls_finish n)
    · exact h
  | expire c now => exact h.expires c now
  | close => exact h.closes
  | remove platform version dryRun =>
    simp only [ComponentInstaller.step, remove]
    split
    · exact h.same (.of_same rfl rfl rfl)
    · split
      · split
        · exact h.same (.of_same rfl rfl rfl)
        · exact h.same (.of_same rfl rfl rfl)
      · exact h.same (.of_same rfl rfl rfl)
  | removes m listing driver now writable =>
    exact h.same (sameCalls_removes m listing driver now writable)
  | provision spec => exact h.same (.of_same rfl rfl rfl)
  | provisions k baselineKnown driver id driverDeviceId now writable =>
    exact h.same (sameCalls_provisions k baselineKnown driver id driverDeviceId now writable)
  | other c now => cases c <;> exact h.same (.of_same rfl rfl rfl)

theorem callsOk_start (r : Registry) : CallsOk (start r) := by
  have hopen : ∀ n, (start r).openOn n = none := fun n => by simp [openOn, start]
  have hcall : ∀ c, (start r).callOf c = none := fun c => by simp [callOf, start]
  refine ⟨fun n _ _ _ h => ?_, fun c _ _ _ h => ?_, fun c _ _ _ h => ?_, .nil,
    fun c _ _ _ h => ?_, by simp [start]⟩
  · simp [hopen] at h
  · simp [hcall] at h
  · simp [hcall] at h
  · simp [hcall] at h

theorem callsOk_run (o : RegistryOptions) (p : InstallerOptions) (r : Registry)
    (acts : List Action) : CallsOk (run (step o p) (start r) acts) :=
  (run_invariant (I := fun s => CallsOk s ∧ QueuesOk none s)
    (fun _ a h => ⟨h.1.moves (CallMoves.step .refl h.2 a), h.2.step a⟩) acts (start r)
    ⟨callsOk_start r, queuesOk_start r⟩).1

/-- What was settled stays settled. -/
theorem CallMoves.settlements (m : CallMoves s s') : s.settlements <+: s'.settlements := by
  induction m with
  | refl => exact List.prefix_rfl
  | tail _ m ih => exact ih.trans m.settlements

/-! ### The end of a call -/

theorem mem_settledCalls_settle {n c : Nat} {i : Install} (hi : s.installs[n]? = some i)
    (hc : c ∈ i.calls) (result : InstallEnd) (settledBy : SettledBy) :
    c ∈ (s.settle n c result settledBy).settledCalls := by
  simp [settledCalls, ComponentInstaller.settle, hi, hc]

theorem settle_installs {n : Nat} {i : Install} (hi : s.installs[n]? = some i) (d : Nat)
    (result : InstallEnd) (settledBy : SettledBy) :
    (s.settle n d result settledBy).installs[n]? = some { i with calls := i.calls.erase d } := by
  simp only [ComponentInstaller.settle, hi]
  split
  · exact getElem?_set_of_getElem? hi
  · rename_i hd
    rw [List.erase_of_not_mem hd]
    exact hi

/-- Every call on an install's list settles with it. -/
theorem mem_settledCalls_settleAll {n c : Nat} {i : Install} (hi : s.installs[n]? = some i)
    (hc : c ∈ i.calls) (result : InstallEnd) (settledBy : SettledBy) :
    c ∈ (s.settleAll n result settledBy).settledCalls := by
  have hkept : ∀ (calls : List Nat) (s : ComponentInstaller), s.settlements <+:
      (calls.foldl (fun s d => s.settle n d result settledBy) s).settlements := by
    intro calls
    induction calls with
    | nil => exact fun s => List.prefix_rfl
    | cons d calls ih => exact fun s => (settlements_settle n d result settledBy).trans (ih _)
  have hfold : ∀ (calls : List Nat) (s : ComponentInstaller) (i : Install),
      s.installs[n]? = some i → c ∈ i.calls → c ∈ calls →
      c ∈ (calls.foldl (fun s d => s.settle n d result settledBy) s).settledCalls := by
    intro calls
    induction calls with
    | nil => exact fun s i _ _ hin => absurd hin List.not_mem_nil
    | cons d calls ih =>
      intro s i hi hc hin
      by_cases hd : c = d
      · subst hd
        exact ((hkept calls _).map Settlement.call).subset
          (mem_settledCalls_settle hi hc result settledBy)
      · refine ih _ { i with calls := i.calls.erase d } ?_ ((List.mem_erase_of_ne hd).mpr hc)
          (List.mem_of_ne_of_mem hd hin)
        exact settle_installs hi d result settledBy
  simp only [ComponentInstaller.settleAll, hi]
  exact hfold i.calls s i hi hc hc

/-- A call whose timer fires is settled. -/
theorem CallsOk.expire_settles (h : CallsOk s) {c : Nat} {call : InstallCall} {due now : Int}
    (hc : s.calls[c]? = some call) (hdue : call.timer = some due) (hnow : due ≤ now) :
    c ∈ (s.expire c now).settledCalls := by
  have hcall : s.callOf c = some (call.request, call.install, some due) := by
    simp [callOf, hc, hdue]
  obtain ⟨n, calls, platform, component, hn, hopen, hmem⟩ := h.armed c _ _ _ hcall
  obtain ⟨i, hi, he⟩ := Option.map_eq_some_iff.mp hopen
  obtain ⟨rfl, -, -⟩ := by simpa using he
  simp only [ComponentInstaller.expire, hc, hdue, hn, hi, Option.any_some, decide_eq_true hnow,
    if_true]
  split
  · exact mem_settledCalls_settleAll (i := { i with state := .ended })
      (getElem?_set_of_getElem? hi) hmem _ _
  · exact mem_settledCalls_settle hi hmem _ _

/-! ### Every call ends once -/

/-- Every call is settled once, or can still be; every install leaves its queue with its run. -/
structure EndsOnce (o : RegistryOptions) (p : InstallerOptions) (s : ComponentInstaller) : Prop where
  once : s.settledCalls.Nodup
  /-- A settlement is final: nothing that happens next takes one back. -/
  final : ∀ a, s.settlements <+: (s.step o p a).settlements
  fits : ∀ x ∈ s.settlements, ∃ call : InstallCall, s.calls[x.call]? = some call ∧ x.Fits call.install
  own : ∀ (c : Nat) (call : InstallCall) (n : Nat), s.calls[c]? = some call →
    call.install = some n → ∃ i : Install, s.installs[n]? = some i ∧
      i.platform = call.request.platform ∧ i.component = call.request.component
  /-- An open call has a timer, and the timer settles it. -/
  open_ : ∀ (c : Nat) (call : InstallCall), s.calls[c]? = some call → c ∉ s.settledCalls → ∃ due, call.timer = some due ∧
    ∀ now, due ≤ now → c ∈ (s.step o p (.expire c now)).settledCalls
  queued : ∀ platform n, n ∈ s.queues platform ↔ ∃ i : Install, s.installs[n]? = some i ∧
    i.platform = platform ∧ i.point ≠ .over
  /-- The head of a queue runs, but for a removal that has the turn. -/
  advances : ∀ platform n, (s.queues platform).head? = some n → s.turns platform = none →
    ∃ i : Install, s.installs[n]? = some i ∧ i.point.isRun = true

theorem CallsOk.endsOnce (h : CallsOk s) (hq : QueuesOk none s) : EndsOnce o p s := by
  have hcall : ∀ {c call}, s.calls[c]? = some call →
      s.callOf c = some (call.request, call.install, call.timer) := by
    intro c call hc
    simp [callOf, hc]
  refine ⟨h.once, fun a => CallMoves.settlements (CallMoves.step .refl hq a), fun x hx => ?_,
    fun c call n hc hn => ?_, fun c call hc hopen => ?_, fun platform n => ?_,
    fun platform n hn ht => ?_⟩
  · obtain ⟨request, install, hxc, hfits⟩ := h.known x hx
    obtain ⟨call, hc, he⟩ := Option.map_eq_some_iff.mp hxc
    simp only [Prod.mk.injEq] at he
    exact ⟨call, hc, he.2.1 ▸ hfits⟩
  · obtain ⟨calls, hi⟩ := h.own c call.request n call.timer (hn ▸ hcall hc)
    obtain ⟨i, hi, he⟩ := Option.map_eq_some_iff.mp hi
    simp only [Prod.mk.injEq] at he
    exact ⟨i, hi, he.2.1, he.2.2⟩
  · cases hdue : call.timer with
    | none => exact absurd ((h.settled c _ _ _ (hcall hc)).mpr hdue) hopen
    | some due => exact ⟨due, rfl, fun now hnow => h.expire_settles hc hdue hnow⟩
  · rw [hq.mem]
    constructor
    · rintro ⟨state, point, hs, hpoint⟩
      obtain ⟨i, hi, he⟩ := Option.map_eq_some_iff.mp hs
      simp only [Prod.mk.injEq] at he
      exact ⟨i, hi, he.1, he.2.2 ▸ hpoint⟩
    · rintro ⟨i, hi, rfl, hpoint⟩
      exact ⟨i.state, i.point, by simp [statusOf, hi], hpoint⟩
  · obtain ⟨state, point, hs, hstarted⟩ := hq.starts platform n (by simp) hn ht
    obtain ⟨state', point', hs', hover⟩ := (hq.mem platform n).mp (List.mem_of_mem_head? hn)
    obtain ⟨i, hi, he⟩ := Option.map_eq_some_iff.mp hs
    simp only [hs, Option.some.injEq, Prod.mk.injEq] at hs' he
    refine ⟨i, hi, RunPoint.isRun_iff.mpr ⟨?_, ?_⟩⟩
    · rw [he.2.2]
      exact hstarted
    · rw [he.2.2, hs'.2.2]
      exact hover

/-- In any run of calls, answers, timers, removals, provisions and a close, every call to install
    ends exactly once, with a result of its own install, its own check, its own deadline or the
    close; and no install stays in its queue after its run. -/
theorem every_call_ends_once (o : RegistryOptions) (p : InstallerOptions) (r : Registry)
    (acts : List Action) : EndsOnce o p (run (step o p) (start r) acts) :=
  (callsOk_run o p r acts).endsOnce (queuesOk_run o p r acts)

end ComponentInstaller

end Simlock.Worker
