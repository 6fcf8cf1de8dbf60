import Mathlib.Algebra.Order.BigOperators.Group.List
import Mathlib.Logic.Relation
import Simlock.Tunnels.Sessions

/-! Tunnel slots are counted exactly, as long as no HELLO is taken after its session's end.

    What a session reserved is on its lease's count until `finish` gives it back, once. So the count
    is the sum over the unfinished sessions: a step that neither ends nor greets a session leaves both
    sides alone, `finish` takes one share off both, and an accepted HELLO adds one to both -- unless
    its session has ended already: `hello` does not look, the count grows, and no `finish` is left to
    give it back. -/

namespace Simlock.Tunnels

open Lib

/-- What a session holds of a lease's count. -/
def share (leaseId : String) (x : Session) : Int :=
  if x.leaseId = leaseId ∧ x.finished = false then x.reserved else 0

def Sessions.reservedOf (s : Sessions) (leaseId : String) : Int :=
  (s.sessions.map (share leaseId)).sum

/-- The count of every lease is what its unfinished sessions reserved, lies within the limit and is
    zero when they have all finished; no rule is asked for or taken up after its session's end. -/
structure Exact (s : Sessions) : Prop where
  counted : ∀ leaseId, s.counts leaseId = s.reservedOf leaseId
  nonneg : ∀ leaseId, 0 ≤ s.counts leaseId
  inLimit : ∀ leaseId, s.counts leaseId ≤ maxTunnels
  zero : ∀ leaseId, (∀ x ∈ s.sessions, x.leaseId = leaseId → x.finished = true) →
    s.counts leaseId = 0
  noRule : ∀ e ∈ s.rules, e.step ≠ .removed → e.afterEnd = false

/-- A HELLO handled on a session that has ended is one its own checks refuse. -/
def Timely (s : Sessions) : Action → Prop
  | .frame i (.hello payload) => ∀ x, s.sessions[i]? = some x → x.greeted = false →
      x.finished = true → ∀ tunnels, checkHello x.device (s.counts x.leaseId) payload ≠ .ok tunnels
  | _ => True

/-- A session has reserved nothing before its HELLO, and never a negative number. -/
def Reserved (s : Sessions) : Prop :=
  ∀ x ∈ s.sessions, 0 ≤ x.reserved ∧ (x.greeted = false → x.reserved = 0)

/-! ### What a step does -/

/-- Two records of a session that count the same. -/
structure Same (x y : Session) : Prop where
  leaseId : y.leaseId = x.leaseId
  reserved : y.reserved = x.reserved
  endedWith : y.endedWith = x.endedWith
  greeted : x.greeted = true → y.greeted = true

theorem Same.refl (x : Session) : Same x x := ⟨rfl, rfl, rfl, id⟩

theorem Same.share {x y : Session} (h : Same x y) (leaseId : String) :
    share leaseId y = share leaseId x := by
  simp [Tunnels.share, Session.finished, h.leaseId, h.reserved, h.endedWith]

/-- The parts a step is made of, apart from an accepted HELLO's reservation. -/
inductive Move : Sessions → Sessions → Prop where
  | attach (s : Sessions) (leaseId : String) (device : Device) :
      Move s { s with sessions := s.sessions ++ [Session.ofSocket leaseId device] }
  | abort (s : Sessions) (aborted : Nat → Bool) : Move s { s with aborted }
  | put {s : Sessions} {i : Nat} {x y : Session} (h : s.sessions[i]? = some x) (same : Same x y) :
      Move s (s.put i y)
  | log (s : Sessions) (i : Nat) (devicePort : Int) {step : RuleStep} {afterEnd : Bool}
      (h : step = .removed ∨ afterEnd = false) : Move s (s.log i devicePort step afterEnd)
  | finish (s : Sessions) (i : Nat) (removeRules : Bool) (signal : Option Nat) :
      Move s (s.finish i removeRules signal)

abbrev Moves := Relation.ReflTransGen Move

theorem Moves.put {s : Sessions} {i : Nat} {x y : Session} (h : s.sessions[i]? = some x)
    (same : Same x y) : Moves s (s.put i y) := .single (.put h same)

/-- A session's record is replaced, and it is then finished. -/
theorem Moves.put_finish {s : Sessions} {i : Nat} {x y : Session} (h : s.sessions[i]? = some x)
    (same : Same x y) (removeRules : Bool) (signal : Option Nat) :
    Moves s ((s.put i y).finish i removeRules signal) :=
  (Moves.put h same).tail (.finish _ _ _ _)

/-- Setting rules goes on for a session that has not ended. -/
theorem Moves.setFrom {s : Sessions} {i : Nat} {x y : Session} (h : s.sessions[i]? = some x)
    (same : Same x y) (hopen : x.finished = false) (tunnels rest : List Tunnel) :
    Moves s (s.setFrom i y tunnels rest) := by
  have hopenY : y.finished = false := by
    simpa only [Session.finished, same.endedWith] using hopen
  unfold Sessions.setFrom
  split
  · rename_i devicePort _ _
    have hlog : Moves s (s.log i devicePort .asked y.finished) := .single (.log s i _ (.inr hopenY))
    exact hlog.tail (.put h ⟨same.leaseId, same.reserved, same.endedWith, same.greeted⟩)
  · exact Moves.put h ⟨same.leaseId, same.reserved, same.endedWith, same.greeted⟩

theorem moves_ruleSet (s : Sessions) (i : Nat) (holdsDeviceRule : Bool) :
    Moves s (s.ruleSet i holdsDeviceRule) := by
  unfold Sessions.ruleSet
  split
  · exact .refl
  · rename_i x hx
    split
    · rename_i tunnels devicePort rest _
      dsimp only
      split
      · rename_i ended _
        split
        · exact Moves.put hx ⟨rfl, rfl, rfl, id⟩
        · have hlog : Moves s (s.log i devicePort .removed true) := .single (.log s i _ (.inl rfl))
          exact hlog.tail (.put hx ⟨rfl, rfl, rfl, id⟩)
      · rename_i hended
        have hopen : x.finished = false := by simp [Session.finished, hended]
        have hlog : Moves s (s.log i devicePort .taken x.finished) :=
          .single (.log s i _ (.inr hopen))
        refine hlog.trans (Moves.setFrom (s := s.log i devicePort .taken x.finished) hx ?_ hopen
          tunnels rest)
        exact ⟨rfl, rfl, rfl, id⟩
    · exact .refl

theorem moves_removed (s : Sessions) (i : Nat) : Moves s (s.removed i) := by
  unfold Sessions.removed
  split
  · exact .refl
  · rename_i x hx
    split
    · rename_i ended rule rest _ _
      have hlog : Moves s (s.log i rule.devicePort .removed true) :=
        .single (.log s i _ (.inl rfl))
      exact hlog.tail (.put hx ⟨rfl, rfl, rfl, id⟩)
    · exact .refl

theorem moves_ruleFailed (s : Sessions) (i : Nat) (error : RuleError) :
    Moves s (s.ruleFailed i error) := by
  unfold Sessions.ruleFailed
  split
  · exact .refl
  · rename_i x hx
    split
    · refine Moves.put_finish hx ?_ true none
      exact ⟨rfl, rfl, rfl, id⟩
    · exact .refl

theorem moves_helloFails (s : Sessions) (i : Nat) : Moves s (s.helloFails i) := by
  unfold Sessions.helloFails
  split
  · exact .refl
  · rename_i x hx
    split
    · refine Moves.put_finish hx ?_ true none
      exact ⟨rfl, rfl, rfl, id⟩
    · exact .refl

theorem moves_refuses (s : Sessions) (i : Nat) : Moves s (s.refuses i) := by
  unfold Sessions.refuses
  split
  · exact .refl
  · rename_i x hx
    split
    · exact Moves.put hx ⟨rfl, rfl, rfl, id⟩
    · exact .refl

theorem moves_endOne (leaseId : Option String) (code : Nat) (removeRules : Bool)
    (signal : Option Nat) (s : Sessions) (i : Nat) :
    Moves s (Sessions.endOne leaseId code removeRules signal s i) := by
  unfold Sessions.endOne
  split
  · exact .refl
  · rename_i x hx
    split
    · refine Moves.put_finish hx ?_ removeRules signal
      exact ⟨rfl, rfl, rfl, id⟩
    · exact .refl

theorem moves_endSessions (s : Sessions) (leaseId : Option String) (code : Nat)
    (removeRules : Bool) (signal : Option Nat) :
    Moves s (s.endSessions leaseId code removeRules signal) := by
  unfold Sessions.endSessions
  generalize List.range s.sessions.length = is
  induction is generalizing s with
  | nil => exact .refl
  | cons i is ih => exact (moves_endOne leaseId code removeRules signal s i).trans (ih _)

/-- The state in which an accepted HELLO has reserved its tunnels. -/
def Sessions.reserve (s : Sessions) (i : Nat) (x : Session) (tunnels : List Tunnel) : Sessions :=
  { s with
    counts := setCount s.counts x.leaseId (s.counts x.leaseId + tunnels.length)
    sessions := s.sessions.set i x }

/-- The session of an accepted HELLO. -/
def Session.greet (x : Session) (tunnels : List Tunnel) : Session :=
  { x with
    greeted := true
    reserved := tunnels.length
    forwards := x.forwards ++ forwardPorts tunnels
    emulatorNamed := x.emulatorNamed || tunnels.any isEmulator }

/-- A HELLO that is accepted. -/
structure Accepts (s : Sessions) (a : Action) (i : Nat) (x : Session) (tunnels : List Tunnel) :
    Prop where
  stored : s.sessions[i]? = some x
  ungreeted : x.greeted = false
  named : 0 < tunnels.length
  fits : s.counts x.leaseId + tunnels.length ≤ maxTunnels
  result : step s a = (s.reserve i (x.greet tunnels) tunnels).setFrom i (x.greet tunnels) tunnels
    tunnels
  timely : Timely s a ↔ x.finished = false

theorem setFrom_put (s : Sessions) (i : Nat) (x : Session) (tunnels rest : List Tunnel) :
    (s.put i x).setFrom i x tunnels rest = s.setFrom i x tunnels rest := by
  unfold Sessions.setFrom
  split <;> simp [Sessions.put, Sessions.log]

/-- A step is a HELLO that is accepted, or made of moves and timely. -/
theorem step_cases (s : Sessions) (a : Action) :
    (Moves s (step s a) ∧ Timely s a) ∨ ∃ i x tunnels, Accepts s a i x tunnels := by
  cases a with
  | attach leaseId device => exact .inl ⟨.single (.attach s leaseId device), trivial⟩
  | ruleSet i holdsDeviceRule => exact .inl ⟨moves_ruleSet s i holdsDeviceRule, trivial⟩
  | ruleFailed i error => exact .inl ⟨moves_ruleFailed s i error, trivial⟩
  | refuses i => exact .inl ⟨moves_refuses s i, trivial⟩
  | helloFails i => exact .inl ⟨moves_helloFails s i, trivial⟩
  | closed i => exact .inl ⟨.single (.finish s i true none), trivial⟩
  | removed i => exact .inl ⟨moves_removed s i, trivial⟩
  | endLease leaseId signal => exact .inl ⟨moves_endSessions s _ _ _ _, trivial⟩
  | drain => exact .inl ⟨moves_endSessions s _ _ _ _, trivial⟩
  | abort signal => exact .inl ⟨.single (.abort s _), trivial⟩
  | frame i frame =>
    cases hx : s.sessions[i]? with
    | none =>
      have hstep : step s (.frame i frame) = s := by simp [step, Sessions.handle, hx]
      refine .inl ⟨?_, ?_⟩
      · rw [hstep]
      cases frame <;> simp [Timely, hx]
    | some x =>
      have put {y : Session} (same : Same x y) : Moves s (s.put i y) := Moves.put hx same
      cases frame with
      | short =>
        refine .inl ⟨?_, trivial⟩
        simp only [step, Sessions.handle, hx]
        exact put ⟨rfl, rfl, rfl, id⟩
      | other tag =>
        refine .inl ⟨?_, trivial⟩
        simp only [step, Sessions.handle, hx]
        split
        · exact .refl
        · exact put ⟨rfl, rfl, rfl, id⟩
      | hello payload =>
        simp only [step, Sessions.handle, hx]
        by_cases hgreeted : x.greeted = true
        · refine .inl ⟨?_, ?_⟩
          · rw [if_pos hgreeted]
            exact put ⟨rfl, rfl, rfl, id⟩
          · intro y hy hfresh
            cases hx.symm.trans hy
            rw [hgreeted] at hfresh
            cases hfresh
        · rw [if_neg hgreeted]
          have hfresh : x.greeted = false := by simpa using hgreeted
          cases hcheck : checkHello x.device (s.counts x.leaseId) payload with
          | error refused =>
            refine .inl ⟨?_, ?_⟩
            · simp only [Sessions.hello, hcheck]
              exact put ⟨rfl, rfl, rfl, fun _ => rfl⟩
            · intro y hy _ _ tunnels htunnels
              cases hx.symm.trans hy
              cases hcheck.symm.trans htunnels
          | ok tunnels =>
            obtain ⟨hnamed, hfits⟩ := checkHello_ok hcheck
            refine .inr ⟨i, x, tunnels, hx, hfresh, hnamed, hfits, ?_, ?_⟩
            · simp only [step, Sessions.handle, hx, hgreeted, Sessions.hello, hcheck]
              exact (setFrom_put _ i (x.greet tunnels) tunnels tunnels).symm
            · constructor
              · intro htimely
                by_contra hfinished
                exact htimely x hx hfresh (by simpa using hfinished) tunnels hcheck
              · intro hopen y hy _ hfinished
                cases hx.symm.trans hy
                rw [hopen] at hfinished
                cases hfinished

/-! ### Sums -/

theorem reservedOf_put {s : Sessions} {i : Nat} {x : Session} (h : s.sessions[i]? = some x)
    (y : Session) (leaseId : String) :
    (s.put i y).reservedOf leaseId = s.reservedOf leaseId - share leaseId x + share leaseId y :=
  sum_map_set h (share leaseId) y

theorem share_nonneg {s : Sessions} (h : Reserved s) {x : Session} (hx : x ∈ s.sessions)
    (leaseId : String) : 0 ≤ share leaseId x := by
  unfold share
  split
  · exact (h x hx).1
  · exact le_rfl

theorem reservedOf_nonneg {s : Sessions} (h : Reserved s) (leaseId : String) :
    0 ≤ s.reservedOf leaseId := by
  refine List.sum_nonneg fun n hn => ?_
  obtain ⟨x, hx, rfl⟩ := List.mem_map.mp hn
  exact share_nonneg h hx leaseId

theorem reservedOf_ended {s : Sessions} {leaseId : String}
    (h : ∀ x ∈ s.sessions, x.leaseId = leaseId → x.finished = true) : s.reservedOf leaseId = 0 := by
  refine List.sum_eq_zero fun n hn => ?_
  obtain ⟨x, hx, rfl⟩ := List.mem_map.mp hn
  unfold share
  refine if_neg fun hshare => ?_
  have hended := h x hx hshare.1
  rw [hshare.2] at hended
  cases hended

/-- The sums give the bounds, and the rest of exactness. -/
theorem Exact.of_counted {s : Sessions} (hreserved : Reserved s)
    (hcounted : ∀ leaseId, s.counts leaseId = s.reservedOf leaseId)
    (hlimit : ∀ leaseId, s.counts leaseId ≤ maxTunnels)
    (hrules : ∀ e ∈ s.rules, e.step ≠ .removed → e.afterEnd = false) : Exact s where
  counted := hcounted
  nonneg leaseId := by
    rw [hcounted]
    exact reservedOf_nonneg hreserved leaseId
  inLimit := hlimit
  zero leaseId h := by
    rw [hcounted]
    exact reservedOf_ended h
  noRule := hrules

/-! ### Invariants of moves -/

theorem finish_eq (s : Sessions) (i : Nat) (removeRules : Bool) (signal : Option Nat) :
    s.finish i removeRules signal = s ∨
      ∃ x, s.sessions[i]? = some x ∧ x.finished = false ∧
        s.finish i removeRules signal =
          { s with counts := setCount s.counts x.leaseId (s.counts x.leaseId - x.reserved) }.put i
            (x.endedBy s.aborted removeRules signal) := by
  unfold Sessions.finish
  split
  · exact .inl rfl
  · rename_i x hx
    split
    · exact .inl rfl
    · rename_i hopen
      exact .inr ⟨x, hx, by simpa using hopen, rfl⟩

theorem reserved_set {s : Sessions} (h : Reserved s) {i : Nat} {y : Session}
    (hy : 0 ≤ y.reserved ∧ (y.greeted = false → y.reserved = 0)) :
    ∀ x ∈ s.sessions.set i y, 0 ≤ x.reserved ∧ (x.greeted = false → x.reserved = 0) := by
  intro x hx
  rcases List.mem_or_eq_of_mem_set hx with hx | rfl
  · exact h x hx
  · exact hy

theorem Move.reserved {s s' : Sessions} (h : Move s s') (hs : Reserved s) : Reserved s' := by
  cases h with
  | attach leaseId device =>
    intro x hx
    rcases List.mem_append.mp hx with hx | hx
    · exact hs x hx
    · obtain rfl := List.mem_singleton.mp hx
      exact ⟨le_rfl, fun _ => rfl⟩
  | abort aborted => exact hs
  | @put i x y hx same =>
    obtain ⟨hnonneg, hfresh⟩ := hs x (List.mem_of_getElem? hx)
    refine reserved_set hs ⟨?_, fun hy => ?_⟩
    · rw [same.reserved]
      exact hnonneg
    · rw [same.reserved]
      refine hfresh ?_
      by_contra hgreeted
      rw [same.greeted (by simpa using hgreeted)] at hy
      cases hy
  | log i devicePort hlog => exact hs
  | finish i removeRules signal =>
    rcases finish_eq s i removeRules signal with heq | ⟨x, hx, -, heq⟩
    · rw [heq]
      exact hs
    · rw [heq]
      exact reserved_set hs (hs x (List.mem_of_getElem? hx))

theorem share_ended {x : Session} (h : x.finished = true) (leaseId : String) :
    share leaseId x = 0 := by
  simp [share, h]

theorem finished_endedBy (x : Session) (aborted : Nat → Bool) (removeRules : Bool)
    (signal : Option Nat) : (x.endedBy aborted removeRules signal).finished = true := rfl

/-- `finish` takes the same share off the count and off the sum. -/
theorem Move.exact {s s' : Sessions} (h : Move s s') (hs : Exact s) (hreserved : Reserved s) :
    Exact s' := by
  have hreserved' := h.reserved hreserved
  cases h with
  | attach leaseId device =>
    refine .of_counted hreserved' (fun l => ?_) hs.inLimit hs.noRule
    have hnew : share l (Session.ofSocket leaseId device) = 0 := by
      unfold share
      split <;> rfl
    simp only [Sessions.reservedOf, List.map_append, List.sum_append, List.map_cons, List.map_nil,
      List.sum_cons, List.sum_nil, hnew, add_zero]
    exact hs.counted l
  | abort aborted => exact .of_counted hreserved' hs.counted hs.inLimit hs.noRule
  | put hx same =>
    refine .of_counted hreserved' (fun l => ?_) hs.inLimit hs.noRule
    rw [reservedOf_put hx, same.share, Int.sub_add_cancel]
    exact hs.counted l
  | log i devicePort hlog =>
    refine .of_counted hreserved' hs.counted hs.inLimit fun e he => ?_
    rcases List.mem_append.mp he with he | he
    · exact hs.noRule e he
    · obtain rfl := List.mem_singleton.mp he
      rintro hstep
      exact hlog.resolve_left hstep
  | finish i removeRules signal =>
    rcases finish_eq s i removeRules signal with heq | ⟨x, hx, hopen, heq⟩
    · rw [heq]
      exact hs
    · rw [heq] at hreserved' ⊢
      have hshare := share_nonneg hreserved (List.mem_of_getElem? hx) x.leaseId
      have hnonneg : 0 ≤ x.reserved := (hreserved x (List.mem_of_getElem? hx)).1
      refine .of_counted hreserved' (fun l => ?_) (fun l => ?_) hs.noRule
      · have hsum := reservedOf_put hx (x.endedBy s.aborted removeRules signal) l
        rw [share_ended (finished_endedBy x s.aborted removeRules signal)] at hsum
        refine Eq.trans ?_ hsum.symm
        have hcounted := hs.counted l
        simp only [Sessions.put, setCount, share, hopen]
        split
        · rename_i heq
          subst heq
          simp
          omega
        · rename_i hne
          simp [Ne.symm hne]
          omega
      · have hlimit := hs.inLimit l
        simp only [Sessions.put, setCount]
        split
        · rename_i heq
          subst heq
          omega
        · exact hlimit

theorem Moves.reserved {s s' : Sessions} (h : Moves s s') (hs : Reserved s) : Reserved s' := by
  induction h with
  | refl => exact hs
  | tail _ hmove ih => exact hmove.reserved ih

theorem Moves.exact {s s' : Sessions} (h : Moves s s') (hs : Exact s) (hreserved : Reserved s) :
    Exact s' := by
  induction h with
  | refl => exact hs
  | tail hmoves hmove ih => exact hmove.exact ih (Moves.reserved hmoves hreserved)

/-! ### An accepted HELLO -/

theorem setFrom_keeps (s : Sessions) (i : Nat) (x : Session) (tunnels rest : List Tunnel) :
    (s.setFrom i x tunnels rest).counts = s.counts ∧
      ∃ y, Same x y ∧ (s.setFrom i x tunnels rest).sessions = s.sessions.set i y := by
  unfold Sessions.setFrom
  split
  · refine ⟨rfl, _, ?_, rfl⟩
    exact ⟨rfl, rfl, rfl, id⟩
  · refine ⟨rfl, _, ?_, rfl⟩
    exact ⟨rfl, rfl, rfl, id⟩

theorem reserve_stored {s : Sessions} {i : Nat} {x : Session} (h : s.sessions[i]? = some x)
    (y : Session) (tunnels : List Tunnel) : (s.reserve i y tunnels).sessions[i]? = some y :=
  getElem?_set_of_getElem? h

theorem reserved_reserve {s : Sessions} (hs : Reserved s) (i : Nat) (x : Session)
    (tunnels : List Tunnel) : Reserved (s.reserve i (x.greet tunnels) tunnels) := by
  refine reserved_set hs ⟨?_, nofun⟩
  simp [Session.greet]

/-- The reservation of a session that has not ended is on both sides. -/
theorem Accepts.exact_reserve {s : Sessions} {a : Action} {i : Nat} {x : Session}
    {tunnels : List Tunnel} (h : Accepts s a i x tunnels) (hopen : x.finished = false)
    (hs : Exact s) (hreserved : Reserved s) :
    Exact (s.reserve i (x.greet tunnels) tunnels) := by
  have hnone : x.reserved = 0 := (hreserved x (List.mem_of_getElem? h.stored)).2 h.ungreeted
  refine .of_counted (reserved_reserve hreserved i x tunnels) (fun l => ?_) (fun l => ?_) hs.noRule
  · have hsum : (s.reserve i (x.greet tunnels) tunnels).reservedOf l =
        s.reservedOf l - share l x + share l (x.greet tunnels) :=
      sum_map_set h.stored (share l) (x.greet tunnels)
    have hshare : share l (x.greet tunnels) =
        if x.leaseId = l then (tunnels.length : Int) else 0 := by
      have hopen' : (x.greet tunnels).finished = false := hopen
      unfold share
      simp only [hopen', and_true]
      rfl
    have hbefore : share l x = 0 := by simp [share, hnone]
    rw [hsum, hshare, hbefore, ← hs.counted l]
    simp only [Sessions.reserve, Session.greet, setCount]
    by_cases hl : l = x.leaseId
    · simp [hl]
    · simp [hl, Ne.symm hl]
  · have hlimit := hs.inLimit l
    have hfits := h.fits
    simp only [Sessions.reserve, Session.greet, setCount]
    split
    · exact hfits
    · exact hlimit

/-- An ended session's reservation is on the count alone. -/
theorem Accepts.not_exact {s : Sessions} {a : Action} {i : Nat} {x : Session}
    {tunnels : List Tunnel} (h : Accepts s a i x tunnels) (hended : x.finished = true)
    (hs : Exact s) : ¬ Exact (step s a) := by
  intro hexact
  obtain ⟨hcounts, y, hsame, hsessions⟩ := setFrom_keeps
    (s.reserve i (x.greet tunnels) tunnels) i (x.greet tunnels) tunnels tunnels
  rw [h.result] at hexact
  have hcounted := hexact.counted x.leaseId
  have hended' : (x.greet tunnels).finished = true := hended
  have hsum : s.reservedOf x.leaseId = s.counts x.leaseId + tunnels.length := by
    have hleft : (s.reserve i (x.greet tunnels) tunnels).counts x.leaseId =
        s.counts x.leaseId + tunnels.length := by
      simp [Sessions.reserve, Session.greet, setCount]
    have hright : ((s.reserve i (x.greet tunnels) tunnels).setFrom i (x.greet tunnels) tunnels
        tunnels).reservedOf x.leaseId = s.reservedOf x.leaseId := by
      unfold Sessions.reservedOf
      rw [hsessions, sum_map_set (reserve_stored h.stored _ _), hsame.share, Int.sub_add_cancel]
      simp only [Sessions.reserve]
      rw [sum_map_set h.stored, share_ended hended, share_ended hended']
      omega
    rw [← hleft, ← hright, ← hcounted, hcounts]
  have hnamed := h.named
  have hbefore := hs.counted x.leaseId
  omega

theorem reserved_step (s : Sessions) (a : Action) (h : Reserved s) : Reserved (step s a) := by
  rcases step_cases s a with ⟨hmoves, -⟩ | ⟨i, x, tunnels, haccepts⟩
  · exact Moves.reserved hmoves h
  · rw [haccepts.result]
    obtain ⟨-, y, hsame, hsessions⟩ := setFrom_keeps
      (s.reserve i (x.greet tunnels) tunnels) i (x.greet tunnels) tunnels tunnels
    unfold Reserved
    rw [hsessions]
    refine reserved_set (reserved_reserve h i x tunnels) ⟨?_, fun hy => ?_⟩
    · rw [hsame.reserved]
      simp [Session.greet]
    · rw [hsame.greeted rfl] at hy
      cases hy

/-- One step keeps the counts exact when it is timely, and only then. -/
theorem exact_step (s : Sessions) (a : Action) (h : Exact s ∧ Reserved s) :
    (Exact (step s a) ∧ Reserved (step s a)) ↔ Timely s a := by
  obtain ⟨hexact, hreserved⟩ := h
  have hreserved' := reserved_step s a hreserved
  rcases step_cases s a with ⟨hmoves, htimely⟩ | ⟨i, x, tunnels, haccepts⟩
  · exact ⟨fun _ => htimely, fun _ => ⟨Moves.exact hmoves hexact hreserved, hreserved'⟩⟩
  · rw [haccepts.timely]
    constructor
    · rintro ⟨hafter, -⟩
      by_contra hended
      exact haccepts.not_exact (by simpa using hended) hexact hafter
    · intro hopen
      refine ⟨?_, hreserved'⟩
      rw [haccepts.result]
      have hmoves := Moves.setFrom (reserve_stored haccepts.stored (x.greet tunnels) tunnels)
        (Same.refl _) hopen tunnels tunnels
      exact Moves.exact hmoves (haccepts.exact_reserve hopen hexact hreserved)
        (reserved_reserve hreserved i x tunnels)

/-! ### Runs -/

theorem exact_init : Exact Sessions.init where
  counted _ := rfl
  nonneg _ := le_rfl
  inLimit _ := by simp [Sessions.init]
  zero _ _ := rfl
  noRule _ h := nomatch h

theorem reserved_init : Reserved Sessions.init := by simp [Reserved, Sessions.init]

/-- Whatever frames, closes, ends and failures come in what order: the counts are exact throughout
    if and only if every HELLO taken after its session's end is one its checks refuse. -/
theorem counts_exact (acts : List Action) :
    (∀ pre, pre <+: acts → Exact (run step .init pre)) ↔ AllSteps step Timely .init acts := by
  rw [allSteps_iff_invariant exact_step acts .init ⟨exact_init, reserved_init⟩]
  constructor
  · intro h pre hpre
    exact ⟨h pre hpre, run_invariant reserved_step pre .init reserved_init⟩
  · exact fun h pre hpre => (h pre hpre).1

/-! ### A HELLO after the lease's end -/

def pixel : Device :=
  { platform := .android, physical := false, supports := true, supportsEmulatorPort := true }

/-- `{"tunnels":[{"kind":"reverse","devicePort":8081}]}`. -/
def reverse8081 : HelloPayload :=
  { length := 50
    parsed := some (.object [("tunnels", .array
      [.object [("kind", .string "reverse"), ("devicePort", .number 8081)]])]) }

def helloAfterEnd : List Action :=
  [.attach "lease_1" pixel, .endLease "lease_1" 0, .frame 0 (.hello reverse8081)]

/-- The one session has ended, and its tunnel is counted and its rule asked for. -/
theorem slot_leaks_after_end :
    (run step .init helloAfterEnd).counts "lease_1" = 1 ∧
      ¬ ∀ acts, ∀ pre, pre <+: acts → Exact (run step .init pre) := by
  have hcount : (run step .init helloAfterEnd).counts "lease_1" = 1 := by decide +kernel
  refine ⟨hcount, fun h => ?_⟩
  have hended : ∀ x ∈ (run step .init helloAfterEnd).sessions,
      x.leaseId = "lease_1" → x.finished = true := by decide +kernel
  have hzero := (h helloAfterEnd helloAfterEnd List.prefix_rfl).zero "lease_1" hended
  rw [hcount] at hzero
  cases hzero

end Simlock.Tunnels
