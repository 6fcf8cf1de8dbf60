import Simlock.Gateway.WorkerLink

/-! Only the current link speaks for a worker.

    The service keeps one link for a worker, the newest accepted, and forgets it when its connection
    closes. Every write of a link asks first whether it is still that one (`superseded`,
    `handleClosed`), except the two `start` makes when the first `status.get` answers. So the view
    follows the current link in every run in which `start`, at that point, is the current link. -/

namespace Simlock.Uplink

open Lib

variable {ν : Type}

/-- One worker's uplinks in the order they were accepted; `current` is the one the service holds. -/
structure Uplinks (ν : Type) where
  links : List (WorkerLink ν)
  current : Option Nat
  view : Option (WorkerView ν)
  drained : Bool
  now : Nat

/-- A call of one link settles, one of its continuations runs, or it is asked to refresh or close. -/
inductive LinkAct (ν : Type) where
  | settleHello (o : Outcome Client)
  | settleStatus (o : Outcome Probe)
  | settleSubscribe (o : Outcome Unit)
  | settleRefreshStatus (o : Outcome (Status ν))
  | settleReads (o : Outcome (Field → Option ν))
  | settleQuery (n : Nat) (o : Outcome (Field → Option ν))
  | continueStart
  | continueRefresh
  | continueQuery (n : Nat)
  | subscribedLate
  | refresh (includeCatalog : Bool)
  | close
  | continueClose
  | connectionClosed

/-- `forget` is an operator's remove or the retention sweep, `updated` the answer of an operator's
    own `worker.update`. -/
inductive Act (ν : Type) where
  | accept (label : Option String)
  | link (i : Nat) (a : LinkAct ν)
  | setDrained (drained : Bool)
  | forget (clearDrain : Bool)
  | updated (answer : Field → Option ν)
  | tick (elapsed : Nat)

def WorkerLink.act (x : WorkerLink ν) (current : Bool) (now : Nat) (catalogKnown : Bool) :
    LinkAct ν → WorkerLink ν × Option (Write ν)
  | .settleHello o => (x.settleHello o, none)
  | .settleStatus o => (x.settleStatus o, none)
  | .settleSubscribe o => (x.settleSubscribe o, none)
  | .settleRefreshStatus o => (x.settleRefreshStatus o, none)
  | .settleReads o => (x.settleReads o, none)
  | .settleQuery n o => (x.settleQuery n o, none)
  | .continueStart => x.continueStart
  | .continueRefresh => x.continueRefresh current now catalogKnown
  | .continueQuery n => x.continueQuery current n
  | .subscribedLate => (x.subscribedLate, none)
  | .refresh includeCatalog => (x.refresh includeCatalog, none)
  | .close => (x.close, none)
  | .continueClose => (x.continueClose, none)
  | .connectionClosed => x.handleClosed current

/-- The registry's entry after a write; a refresh brings no forgotten view back. -/
def Write.apply (w : Write ν) (view : Option (WorkerView ν)) (drained : Bool) (now : Nat) :
    Option (WorkerView ν) :=
  match w with
  | .connected label version => some (Uplink.connected view drained now label version)
  | .incompatible label protocol version =>
    some (Uplink.incompatible view drained now label protocol version)
  | .refresh r => view.map fun v => v.refresh now r
  | .disconnected => view.map fun v => v.disconnected now

namespace Uplinks

def start (drained : Bool) : Uplinks ν :=
  { links := [], current := none, view := none, drained, now := 0 }

def catalogKnown (s : Uplinks ν) : Bool := (s.view.bind fun v => v.field .catalog).isSome

/-- A newer uplink replaces the one held, which is closed. -/
def accept (s : Uplinks ν) (label : Option String) : Uplinks ν :=
  let closing :=
    match s.current with
    | some i => s.links.modify i WorkerLink.close
    | none => s.links
  { s with links := closing ++ [.ofUplink label], current := some closing.length }

/-- A link steps from `x` to `y` and writes `w`; its reported close makes the service forget it, if
    it is the one held. -/
def stepLink (s : Uplinks ν) (i : Nat) (x y : WorkerLink ν) (w : Option (Write ν)) : Uplinks ν :=
  { s with
    links := s.links.set i y
    current := if !x.gone && y.gone && s.current == some i then none else s.current
    view :=
      match w with
      | some w => w.apply s.view s.drained s.now
      | none => s.view }

def forget (s : Uplinks ν) (clearDrain : Bool) : Uplinks ν :=
  match s.view with
  | some v =>
    if v.connection = .disconnected then
      { s with view := none, drained := s.drained && !clearDrain }
    else s
  | none => { s with drained := s.drained && !clearDrain }

def actLink (s : Uplinks ν) (i : Nat) (a : LinkAct ν) : Uplinks ν :=
  match s.links[i]? with
  | some x =>
    let next := x.act (s.current == some i) s.now s.catalogKnown a
    s.stepLink i x next.1 next.2
  | none => s

def setDrained (s : Uplinks ν) (drained : Bool) : Uplinks ν :=
  match s.view with
  | some v => { s with view := some { v with drained }, drained }
  | none => s

def step (s : Uplinks ν) : Act ν → Uplinks ν
  | .accept label => s.accept label
  | .link i a => s.actLink i a
  | .setDrained drained => s.setDrained drained
  | .forget clearDrain => s.forget clearDrain
  | .updated answer => { s with view := s.view.map fun v => v.refresh s.now (updateRefresh answer) }
  | .tick elapsed => { s with now := s.now + elapsed }

end Uplinks

/-! ### What a link's step writes -/

/-- `start` is about to mark the worker connected or incompatible. -/
def WorkerLink.marks (x : WorkerLink ν) : Bool :=
  match x.start with
  | .status (.settled (.answered (.unsupported ..))) => true
  | .status (.settled (.answered .compatible)) => x.client.any (·.admin)
  | _ => false

theorem not_superseded {x : WorkerLink ν} {current : Bool} (h : ¬ x.superseded current = true) :
    current = true := by
  unfold WorkerLink.superseded at h
  cases current with
  | true => rfl
  | false => simp at h

theorem continueStart_writes {x : WorkerLink ν} {w : Write ν} (h : x.continueStart.2 = some w) :
    x.marks = true := by
  unfold WorkerLink.continueStart at h
  unfold WorkerLink.marks
  split at h
  case h_3 hstart => rw [hstart]
  case h_4 hstart =>
    rw [hstart]
    split at h
    · rename_i client hclient
      split at h
      · rename_i hadmin
        simp [hclient, hadmin]
      · cases h
    · cases h
  case h_6 => split at h <;> cases h
  all_goals cases h

theorem continueRefresh_writes {x : WorkerLink ν} {current : Bool} {now : Nat} {known : Bool}
    {w : Write ν} (h : (x.continueRefresh current now known).2 = some w) : current = true := by
  unfold WorkerLink.continueRefresh at h
  split at h
  · dsimp only at h
    split at h
    · dsimp only at h
      split at h
      · cases h
      · rename_i hsup
        exact not_superseded hsup
    · cases h
  · dsimp only at h
    split at h
    · cases h
    · rename_i hsup
      exact not_superseded hsup
  all_goals cases h

theorem continueQuery_writes {x : WorkerLink ν} {current : Bool} {n : Nat} {w : Write ν}
    (h : (x.continueQuery current n).2 = some w) : current = true := by
  unfold WorkerLink.continueQuery at h
  split at h
  · dsimp only at h
    split at h
    · dsimp only at h
      split at h
      · cases h
      · rename_i hsup
        exact not_superseded hsup
    all_goals cases h
  all_goals cases h

theorem handleClosed_writes {x : WorkerLink ν} {current : Bool} {w : Write ν}
    (h : (x.handleClosed current).2 = some w) : current = true := by
  unfold WorkerLink.handleClosed at h
  split at h
  · cases h
  · dsimp only at h
    split at h
    · assumption
    · cases h

/-- Every write but the two of `start` is made by the current link only. -/
theorem act_writes {x : WorkerLink ν} {current : Bool} {now : Nat} {known : Bool} {a : LinkAct ν}
    {w : Write ν} (h : (x.act current now known a).2 = some w) :
    current = true ∨ (a = .continueStart ∧ x.marks = true) := by
  cases a with
  | continueStart => exact Or.inr ⟨rfl, continueStart_writes h⟩
  | continueRefresh => exact Or.inl (continueRefresh_writes h)
  | continueQuery n => exact Or.inl (continueQuery_writes h)
  | connectionClosed => exact Or.inl (handleClosed_writes h)
  | _ => cases h

/-! ### When a link's connection is gone -/

@[simp] theorem close_gone (x : WorkerLink ν) : x.close.gone = x.gone := by
  unfold WorkerLink.close
  split <;> rfl

@[simp] theorem refresh_gone (x : WorkerLink ν) (c : Bool) : (x.refresh c).gone = x.gone := by
  unfold WorkerLink.refresh
  split
  · rfl
  · split
    · rfl
    · split <;> rfl

@[simp] theorem finishRefresh_gone (x : WorkerLink ν) : x.finishRefresh.gone = x.gone := by
  unfold WorkerLink.finishRefresh
  dsimp only
  split
  · split
    · rfl
    · exact refresh_gone _ _
  · rfl

@[simp] theorem countTimeout_gone (x : WorkerLink ν) : x.countTimeout.gone = x.gone := by
  unfold WorkerLink.countTimeout
  dsimp only
  split
  · exact close_gone _
  · rfl

theorem continueStart_gone (x : WorkerLink ν) : x.continueStart.1.gone = x.gone := by
  unfold WorkerLink.continueStart
  split
  case h_4 =>
    split
    · split
      · rfl
      · exact close_gone _
    · rfl
  case h_6 => split <;> exact refresh_gone _ _
  all_goals simp

theorem continueRefresh_gone (x : WorkerLink ν) (current : Bool) (now : Nat) (known : Bool) :
    (x.continueRefresh current now known).1.gone = x.gone := by
  unfold WorkerLink.continueRefresh
  split
  · dsimp only
    split
    · exact finishRefresh_gone _
    · rfl
  all_goals simp

theorem continueQuery_gone (x : WorkerLink ν) (current : Bool) (n : Nat) :
    (x.continueQuery current n).1.gone = x.gone := by
  unfold WorkerLink.continueQuery
  split
  · dsimp only
    split <;> rfl
  all_goals rfl

theorem act_gone_eq (x : WorkerLink ν) (current : Bool) (now : Nat) (known : Bool) (a : LinkAct ν)
    (ha : a ≠ .connectionClosed) : (x.act current now known a).1.gone = x.gone := by
  cases a with
  | connectionClosed => exact absurd rfl ha
  | continueStart => exact continueStart_gone x
  | continueRefresh => exact continueRefresh_gone x current now known
  | continueQuery n => exact continueQuery_gone x current n
  | refresh c => exact refresh_gone x c
  | close => exact close_gone x
  | continueClose =>
    unfold WorkerLink.act WorkerLink.continueClose
    dsimp only
    split <;> rfl
  | subscribedLate =>
    unfold WorkerLink.act WorkerLink.subscribedLate
    dsimp only
    split
    · exact refresh_gone _ _
    · rfl
  | settleHello o =>
    unfold WorkerLink.act WorkerLink.settleHello
    dsimp only
    split <;> (try split) <;> rfl
  | settleStatus o =>
    unfold WorkerLink.act WorkerLink.settleStatus
    dsimp only
    split <;> (try split) <;> rfl
  | settleSubscribe o =>
    unfold WorkerLink.act WorkerLink.settleSubscribe
    dsimp only
    split <;> (try split) <;> rfl
  | settleRefreshStatus o =>
    unfold WorkerLink.act WorkerLink.settleRefreshStatus
    dsimp only
    split <;> (try split) <;> rfl
  | settleReads o =>
    unfold WorkerLink.act WorkerLink.settleReads
    dsimp only
    split <;> (try split) <;> rfl
  | settleQuery n o =>
    unfold WorkerLink.act WorkerLink.settleQuery
    dsimp only
    split <;> (try split) <;> rfl

/-- Only the connection's close makes a link gone, and the current link then says so. -/
theorem act_gone {x : WorkerLink ν} {current : Bool} {now : Nat} {known : Bool} {a : LinkAct ν}
    (hx : x.gone = false) (hy : (x.act current now known a).1.gone = true) :
    (x.act current now known a).2 = if current then some .disconnected else none := by
  by_cases ha : a = .connectionClosed
  · subst ha
    simp [WorkerLink.act, WorkerLink.handleClosed, hx]
  · rw [act_gone_eq x current now known a ha, hx] at hy
    cases hy

/-! ### What the view says of the connection -/

@[simp] theorem refresh_connection (v : WorkerView ν) (now : Nat) (r : WorkerRefresh ν) :
    (v.refresh now r).connection = v.connection := by
  unfold WorkerView.refresh
  dsimp only
  split <;> split <;> rfl

@[simp] theorem disconnected_connection (v : WorkerView ν) (now : Nat) :
    (v.disconnected now).connection = .disconnected := by
  unfold WorkerView.disconnected
  split
  · assumption
  · rfl

/-- The view, if there is one, says `disconnected`. -/
def Dark (view : Option (WorkerView ν)) : Prop := ∀ v ∈ view, v.connection = .disconnected

theorem Dark.map {view : Option (WorkerView ν)} (h : Dark view) {f : WorkerView ν → WorkerView ν}
    (hf : ∀ v, (f v).connection = v.connection) : Dark (view.map f) := by
  intro v hv
  obtain ⟨u, hu, rfl⟩ := Option.map_eq_some_iff.mp hv
  rw [hf u]
  exact h u hu

/-! ### The service -/

namespace Uplinks

/-- The link that is about to mark the worker, if the step is its. -/
def marking (s : Uplinks ν) : Act ν → Option Nat
  | .link i .continueStart => if s.links[i]?.any (·.marks) then some i else none
  | _ => none

/-- `start` marks the worker only on the link the service holds. -/
def Careful (s : Uplinks ν) (a : Act ν) : Prop := ∀ i ∈ s.marking a, s.current = some i

instance (s : Uplinks ν) (a : Act ν) : Decidable (Careful s a) :=
  inferInstanceAs (Decidable (∀ i ∈ s.marking a, s.current = some i))

/-- A link that a newer one has replaced leaves the view as it is. -/
def OlderSilent (s : Uplinks ν) (a : Act ν) : Prop :=
  ∀ i b, a = .link i b → i + 1 < s.links.length → (s.step a).view = s.view

/-- Once the newest link's connection has closed, the view says neither `connected` nor
    `incompatible`. -/
def ClosedDark (s : Uplinks ν) : Prop := ∀ x ∈ s.links.getLast?, x.gone = true → Dark s.view

structure Inv (s : Uplinks ν) : Prop where
  newest : ∀ i, s.current = some i → i + 1 = s.links.length
  here : ∀ i x, s.current = some i → s.links[i]? = some x → x.gone = false
  dark : s.current = none → Dark s.view

theorem start_inv (drained : Bool) : Inv (Uplinks.start drained : Uplinks ν) := by
  refine ⟨fun i hi => ?_, fun i x hi _ => ?_, fun _ v hv => ?_⟩
  · cases hi
  · cases hi
  · cases hv

theorem Inv.accept (s : Uplinks ν) (label : Option String) : Inv (s.accept label) := by
  unfold Uplinks.accept
  dsimp only
  generalize (match s.current with
    | some i => s.links.modify i WorkerLink.close
    | none => s.links) = closing
  refine ⟨fun i hi => ?_, fun i x hi hx => ?_, fun hnone => ?_⟩
  · obtain rfl : closing.length = i := by simpa using hi
    simp
  · obtain rfl : closing.length = i := by simpa using hi
    obtain rfl : WorkerLink.ofUplink label = x := by simpa using hx
    rfl
  · cases hnone

/-- The write of a link's step is the current link's own, where `start` takes care. -/
theorem writes_current {s : Uplinks ν} {i : Nat} {x : WorkerLink ν} {a : LinkAct ν} {w : Write ν}
    (hx : s.links[i]? = some x) (hok : Careful s (.link i a))
    (hw : (x.act (s.current == some i) s.now s.catalogKnown a).2 = some w) :
    s.current = some i := by
  rcases act_writes hw with hcur | ⟨rfl, hmarks⟩
  · exact eq_of_beq hcur
  · apply hok i
    simp [marking, hx, hmarks]

theorem Inv.stepLink {s : Uplinks ν} (h : Inv s) {i : Nat} {x : WorkerLink ν} {a : LinkAct ν}
    (hx : s.links[i]? = some x) (hok : Careful s (.link i a)) :
    let next := x.act (s.current == some i) s.now s.catalogKnown a
    Inv (s.stepLink i x next.1 next.2) := by
  intro next
  unfold Uplinks.stepLink
  refine ⟨?_, ?_, ?_⟩
  · intro j hj
    have hcur : s.current = some j := by
      dsimp only at hj
      split at hj
      · cases hj
      · exact hj
    simpa using h.newest j hcur
  · intro j z hj hz
    dsimp only at hj hz
    split at hj
    · cases hj
    · rename_i hleft
      rw [getElem?_set_if hx] at hz
      split at hz
      · rename_i hji
        subst hji
        cases hz
        have hgone := h.here j x hj hx
        simpa [hgone, hj] using hleft
      · exact h.here j z hj hz
  · intro hnone
    dsimp only at hnone ⊢
    split at hnone
    · rename_i hleft
      -- the held link's connection closes: it says so itself
      simp only [Bool.and_eq_true, Bool.not_eq_true', beq_iff_eq] at hleft
      obtain ⟨⟨hxg, hyg⟩, hcur⟩ := hleft
      have hw : next.2 = some .disconnected := by
        rw [act_gone hxg hyg, hcur]
        simp
      rw [hw]
      intro v hv
      obtain ⟨u, hu, rfl⟩ := Option.map_eq_some_iff.mp hv
      exact disconnected_connection u s.now
    · cases hw : next.2 with
      | none => exact h.dark hnone
      | some w =>
        have hcur := writes_current hx hok hw
        rw [hcur] at hnone
        cases hnone

/-- One step, as long as `start` marks only on the current link. -/
theorem Inv.step {s : Uplinks ν} (a : Act ν) (hok : Careful s a) (h : Inv s) : Inv (s.step a) := by
  cases a with
  | accept label => exact Inv.accept s label
  | link i a =>
    unfold Uplinks.step Uplinks.actLink
    dsimp only
    split
    · rename_i x hx
      exact h.stepLink hx hok
    · exact h
  | setDrained drained =>
    unfold Uplinks.step Uplinks.setDrained
    dsimp only
    split
    · rename_i v hv
      refine ⟨h.newest, h.here, fun hnone u hu => ?_⟩
      cases hu
      exact h.dark hnone v hv
    · exact h
  | forget clearDrain =>
    unfold Uplinks.step Uplinks.forget
    dsimp only
    split
    · split
      · refine ⟨h.newest, h.here, fun _ u hu => ?_⟩
        cases hu
      · exact h
    · exact ⟨h.newest, h.here, h.dark⟩
  | updated answer =>
    exact ⟨h.newest, h.here, fun hnone => (h.dark hnone).map fun v => refresh_connection v _ _⟩
  | tick elapsed => exact ⟨h.newest, h.here, h.dark⟩

theorem Inv.olderSilent {s : Uplinks ν} (h : Inv s) {a : Act ν} (hok : Careful s a) :
    OlderSilent s a := by
  rintro i b rfl hold
  unfold Uplinks.step Uplinks.actLink
  dsimp only
  split
  · rename_i x hx
    unfold Uplinks.stepLink
    dsimp only
    split
    · rename_i w hw
      have hnew := h.newest i (writes_current hx hok hw)
      omega
    · rfl
  · rfl

theorem Inv.closedDark {s : Uplinks ν} (h : Inv s) : ClosedDark s := by
  intro x hx hgone
  apply h.dark
  cases hcur : s.current with
  | none => rfl
  | some i =>
    have hlen := h.newest i hcur
    have hlast : s.links[i]? = some x := by
      rw [Option.mem_def, List.getLast?_eq_getElem?] at hx
      rwa [show i = s.links.length - 1 by omega]
    rw [h.here i x hcur hlast] at hgone
    cases hgone

end Uplinks

/-- In every run in which `start`, when its first `status.get` is answered, marks the worker only on
    the link the service still holds, no step of a replaced link changes the view, and once the
    newest link's connection has closed the view says neither `connected` nor `incompatible`. -/
theorem only_current_link_speaks (drained : Bool) (acts : List (Act ν))
    (h : AllSteps Uplinks.step Uplinks.Careful (Uplinks.start drained) acts) :
    AllSteps Uplinks.step Uplinks.OlderSilent (Uplinks.start drained) acts ∧
      (run Uplinks.step (Uplinks.start drained) acts).ClosedDark := by
  have hstep : ∀ (s : Uplinks ν) a, s.Careful a → s.Inv → (s.step a).Inv :=
    fun s a hok hs => hs.step a hok
  have hstart := Uplinks.start_inv (ν := ν) drained
  refine ⟨?_, ?_⟩
  · exact AllSteps.of_invariant hstep (fun s a hok hs => hs.olderSilent hok) acts _ hstart h
  · exact (run_invariant_of_allSteps hstep acts _ hstart h).closedDark

/-- A first link up to its mark, a second that replaces it, and the close of both. -/
def reconnect : List (Act Nat) :=
  let handshake (i : Nat) : List (Act Nat) :=
    [.link i (.settleHello (.answered { version := some "2.1.0", admin := true })),
      .link i .continueStart, .link i (.settleStatus (.answered .compatible)),
      .link i .continueStart]
  [.accept (some "mini")] ++ handshake 0 ++ [.accept (some "mini")] ++ handshake 1 ++
    [.link 0 .connectionClosed, .link 1 .connectionClosed]

theorem only_current_link_speaks_reconnect :
    AllSteps Uplinks.step Uplinks.OlderSilent (Uplinks.start false) reconnect ∧
      (run Uplinks.step (Uplinks.start false) reconnect).ClosedDark :=
  only_current_link_speaks false reconnect (by decide +kernel)

/-- The first `status.get` is answered, and the connection closes before `start` goes on: the view
    of a worker with no link says `connected`. -/
def closedAtFirstStatus : List (Act Nat) :=
  [.accept (some "mini"),
    .link 0 (.settleHello (.answered { version := some "2.1.0", admin := true })),
    .link 0 .continueStart, .link 0 (.settleStatus (.answered .compatible)),
    .link 0 .connectionClosed, .link 0 .continueStart]

theorem closed_link_marked_connected :
    ¬ ∀ acts : List (Act Nat),
      AllSteps Uplinks.step Uplinks.OlderSilent (Uplinks.start false) acts ∧
        (run Uplinks.step (Uplinks.start false) acts).ClosedDark := by
  intro hall
  have hdark := (hall closedAtFirstStatus).2
  have hgone : ((run Uplinks.step (Uplinks.start false) closedAtFirstStatus).links.getLast?.map
      (·.gone)) = some true := by decide +kernel
  have hview : ((run Uplinks.step (Uplinks.start false) closedAtFirstStatus).view.map
      (·.connection)) = some .connected := by decide +kernel
  obtain ⟨x, hx, hgx⟩ := Option.map_eq_some_iff.mp hgone
  obtain ⟨v, hv, hcv⟩ := Option.map_eq_some_iff.mp hview
  have hdis := hdark x hx hgx v hv
  rw [hcv] at hdis
  cases hdis

end Simlock.Uplink
