import Simlock.Link.EndInv
import Simlock.Lib.Run

/-! Two conforming ends never fault each other.

    `PairOk` is the invariant of a connection. Each end is sound by itself; every channel number is
    in one of the stages of `Opened`, from unused over an `OPEN` on its way to a channel at both
    ends, and its exchange is sound; and an `OPEN` on its way finds room when it arrives (`Order`):
    of the channels opened before it, all but fewer than 64 have ended at the receiver, or will have
    once it has read the messages ahead of that `OPEN`.

        owner     ──── OPEN n ───── END m ── DATA ──▶     receiver
                  (m was given back before n was opened, so its END is ahead of OPEN n) -/

namespace Simlock.Link

/-- The messages of channel `n`. -/
def numbered (n : Nat) : List Message → List Envelope
  | [] => []
  | .text _ :: ms => numbered n ms
  | .binary e :: ms => if e.number = n then e :: numbered n ms else numbered n ms

@[simp] theorem numbered_append (n : Nat) (ms ks : List Message) :
    numbered n (ms ++ ks) = numbered n ms ++ numbered n ks := by
  induction ms with
  | nil => rfl
  | cons m ms ih =>
    cases m with
    | text t => simpa [numbered] using ih
    | binary e =>
      simp only [numbered, List.cons_append, ih]
      split <;> rfl

theorem numbered_map {n m : Nat} {fs : List Envelope} (h : ∀ e ∈ fs, e.number = m) :
    numbered n (fs.map .binary) = if m = n then fs else [] := by
  induction fs with
  | nil => simp [numbered]
  | cons e fs ih =>
    obtain ⟨he, hfs⟩ := List.forall_mem_cons.mp h
    rw [List.map_cons, numbered, ih hfs, he]
    split <;> rfl

theorem mem_of_numbered {n : Nat} {e : Envelope} {ms : List Message} (h : e ∈ numbered n ms) :
    .binary e ∈ ms ∧ e.number = n := by
  induction ms with
  | nil => cases h
  | cons m ms ih =>
    cases m with
    | text t => exact ⟨List.mem_cons_of_mem _ (ih h).1, (ih h).2⟩
    | binary f =>
      rw [numbered] at h
      split at h
      · next hf =>
        rcases List.mem_cons.mp h with rfl | h
        · exact ⟨List.mem_cons_self, hf⟩
        · exact ⟨List.mem_cons_of_mem _ (ih h).1, (ih h).2⟩
      · exact ⟨List.mem_cons_of_mem _ (ih h).1, (ih h).2⟩

/-! ### One channel number at both ends -/

/-- What an end has of one channel number. -/
structure View where
  obj : Option Channel
  wire : List Envelope
  lane : List Envelope
  closed : Bool

def View.chan (v : View) (n : Nat) : Channel := v.obj.getD (Channel.new n "" false)

def Pair.view (p : Pair) (s : Side) (n : Nat) : View where
  obj := (p.ends s).objects n
  wire := numbered n (p.wire s)
  lane := numbered n (p.ends s).priority
  closed := (p.ends s).closed

def openFrame (n : Nat) (c : Channel) : Envelope := ⟨.OPEN, n, encodeId c.id⟩

def NoOpen (fs : List Envelope) : Prop := ∀ e ∈ fs, e.type ≠ .OPEN

/-- The stages of a channel number; `o` is the view of the end that owns it. -/
inductive Opened (n : Nat) (o q : View) : Prop
  | unused (ho : o.obj = none) (hq : q.obj = none) (hw : o.wire = []) (hl : o.lane = [])
      (hqw : q.wire = []) (hql : q.lane = [])
  | queued (a : Channel) (la : List Envelope) (ho : o.obj = some a) (hq : q.obj = none)
      (hid : isChannelId a.id = true) (hh : a.openHanded = false) (hw : o.wire = [])
      (hl : o.lane = openFrame n a :: la) (hno : NoOpen la) (hqw : q.wire = []) (hql : q.lane = [])
  | lost (a : Channel) (ho : o.obj = some a) (hq : q.obj = none) (hid : isChannelId a.id = true)
      (hh : a.openHanded = false) (hc : o.closed = true) (hw : o.wire = []) (hl : o.lane = [])
      (hqw : q.wire = []) (hql : q.lane = [])
  | sent (a : Channel) (wa : List Envelope) (ho : o.obj = some a) (hq : q.obj = none)
      (hid : isChannelId a.id = true) (hh : a.openHanded = true) (hw : o.wire = openFrame n a :: wa)
      (hno : NoOpen (wa ++ o.lane)) (hqw : q.wire = []) (hql : q.lane = [])
  | both (a b : Channel) (ho : o.obj = some a) (hq : q.obj = some b) (hid : b.id = a.id)
      (hh : a.openHanded = true) (hh' : b.openHanded = true) (hno : NoOpen (o.wire ++ o.lane))
      (hno' : NoOpen (q.wire ++ q.lane))

def Side.parity : Side → Nat
  | .worker => 1
  | .gateway => 0

/-- The end whose parity the number has. -/
def owner (n : Nat) : Side := if n % 2 = 1 then .worker else .gateway

theorem owner_eq_iff {n : Nat} {s : Side} : owner n = s ↔ n % 2 = s.parity := by
  unfold owner
  cases s <;> split <;> simp [Side.parity] <;> omega

@[simp] theorem Side.other_other (s : Side) : s.other.other = s := by cases s <;> rfl

theorem Side.other_ne (s : Side) : s.other ≠ s := by cases s <;> decide

theorem Side.eq_or (s t : Side) : t = s ∨ t = s.other := by cases s <;> cases t <;> decide

/-- The stage of number `n`, with the views of end `s` and of the other end. -/
def OpenedAt (s : Side) (n : Nat) (v u : View) : Prop :=
  if owner n = s then Opened n v u else Opened n u v

/-- Channel number `n` as end `s` sees it (`v`), and the other end (`u`). -/
structure ChanAt (s : Side) (n : Nat) (v u : View) : Prop where
  exchange : Exchange (v.chan n) (u.chan n) v.wire v.lane u.wire u.lane
  opened : OpenedAt s n v u

theorem OpenedAt.swap {s : Side} {n : Nat} {v u : View} (h : OpenedAt s n v u) :
    OpenedAt s.other n u v := by
  unfold OpenedAt at h ⊢
  by_cases hs : owner n = s
  · rw [if_pos hs] at h
    rw [if_neg (by rw [hs]; exact (Side.other_ne s).symm)]
    exact h
  · rw [if_neg hs] at h
    rw [if_pos ((Side.eq_or s (owner n)).resolve_left hs)]
    exact h

theorem ChanAt.swap {s : Side} {n : Nat} {v u : View} (h : ChanAt s n v u) :
    ChanAt s.other n u v := ⟨h.exchange.swap, h.opened.swap⟩

theorem NoOpen.append {es fs : List Envelope} (h : NoOpen es) (k : NoOpen fs) :
    NoOpen (es ++ fs) := fun e he => (List.mem_append.mp he).elim (h e) (k e)

theorem NoOpen.left {es fs : List Envelope} (h : NoOpen (es ++ fs)) : NoOpen es :=
  fun e he => h e (List.mem_append_left _ he)

theorem NoOpen.right {es fs : List Envelope} (h : NoOpen (es ++ fs)) : NoOpen fs :=
  fun e he => h e (List.mem_append_right _ he)

theorem NoOpen.single {e : Envelope} (h : e.type ≠ .OPEN) : NoOpen [e] :=
  fun _ hf => List.mem_singleton.mp hf ▸ h

section
variable {s : Side} {n : Nat} {v u : View} {c c' : Channel} {e : Envelope}
  {wa la fs : List Envelope}

/-- A step of the channel at this end that neither hands over nor receives. -/
theorem OpenedAt.step (h : OpenedAt s n v u) (hc : v.obj = some c) (hid : c'.id = c.id)
    (hop : c'.openHanded = c.openHanded) (hfs : NoOpen fs) (hcl : v.closed = true → fs = []) :
    OpenedAt s n { v with obj := some c', lane := v.lane ++ fs } u := by
  have hframe : openFrame n c' = openFrame n c := by rw [openFrame, openFrame, hid]
  unfold OpenedAt at h ⊢
  split at h
  · next hs =>
    rw [if_pos hs]
    cases h with
    | unused ho => rw [ho] at hc; cases hc
    | queued a la ho hq hi hh hw hl hno hqw hql =>
      cases hc.symm.trans ho
      exact .queued c' (la ++ fs) rfl hq (hid ▸ hi) (hop.trans hh) hw (by rw [hl, hframe]; rfl)
        (hno.append hfs) hqw hql
    | lost a ho hq hi hh hcl' hw hl hqw hql =>
      cases hc.symm.trans ho
      exact .lost c' rfl hq (hid ▸ hi) (hop.trans hh) hcl' hw (by rw [hl, hcl hcl']; rfl) hqw hql
    | sent a wa ho hq hi hh hw hno hqw hql =>
      cases hc.symm.trans ho
      exact .sent c' wa rfl hq (hid ▸ hi) (hop.trans hh) (by rw [hw, hframe])
        (by rw [← List.append_assoc]; exact hno.append hfs) hqw hql
    | both a b ho hq hi hh hh' hno hno' =>
      cases hc.symm.trans ho
      exact .both c' b rfl hq (hi.trans hid.symm) (hop.trans hh) hh'
        (by rw [← List.append_assoc]; exact hno.append hfs) hno'
  · next hs =>
    rw [if_neg hs]
    cases h with
    | unused ho hq => rw [hq] at hc; cases hc
    | queued a la ho hq => rw [hq] at hc; cases hc
    | lost a ho hq => rw [hq] at hc; cases hc
    | sent a wa ho hq => rw [hq] at hc; cases hc
    | both a b ho hq hi hh hh' hno hno' =>
      cases hc.symm.trans hq
      exact .both a c' ho rfl (hid.trans hi) hh (hop.trans hh') hno
        (by rw [← List.append_assoc]; exact hno'.append hfs)

/-- A message other than `OPEN` joins the wire; the channel's own `OPEN` is out. -/
theorem OpenedAt.handItem (h : OpenedAt s n v u) (hc : v.obj = some c)
    (hop : c.openHanded = true) (he : e.type ≠ .OPEN) :
    OpenedAt s n { v with wire := v.wire ++ [e] } u := by
  have hmid : ∀ {w l : List Envelope}, NoOpen (w ++ l) → NoOpen (w ++ [e] ++ l) := fun hno =>
    (hno.left.append (.single he)).append hno.right
  unfold OpenedAt at h ⊢
  split at h
  · next hs =>
    rw [if_pos hs]
    cases h with
    | unused ho => rw [ho] at hc; cases hc
    | queued a la ho hq hi hh =>
      cases hc.symm.trans ho
      exact absurd (hh.symm.trans hop) (by decide)
    | lost a ho hq hi hh =>
      cases hc.symm.trans ho
      exact absurd (hh.symm.trans hop) (by decide)
    | sent a wa ho hq hi hh hw hno hqw hql =>
      exact .sent a (wa ++ [e]) ho hq hi hh (by rw [hw]; rfl) (hmid hno) hqw hql
    | both a b ho hq hi hh hh' hno hno' => exact .both a b ho hq hi hh hh' (hmid hno) hno'
  · next hs =>
    rw [if_neg hs]
    cases h with
    | unused ho hq => rw [hq] at hc; cases hc
    | queued a la ho hq => rw [hq] at hc; cases hc
    | lost a ho hq => rw [hq] at hc; cases hc
    | sent a wa ho hq => rw [hq] at hc; cases hc
    | both a b ho hq hi hh hh' hno hno' => exact .both a b ho hq hi hh hh' hno (hmid hno')

/-- A message other than `OPEN` goes from the priority lane to the wire. -/
theorem OpenedAt.handLane (h : OpenedAt s n v u) (hl : v.lane = e :: la) (he : e.type ≠ .OPEN) :
    OpenedAt s n { v with wire := v.wire ++ [e], lane := la } u := by
  have hmove : ∀ {w : List Envelope}, NoOpen (w ++ v.lane) → NoOpen (w ++ [e] ++ la) := by
    intro w hno
    rw [hl] at hno
    simpa using hno
  unfold OpenedAt at h ⊢
  split at h
  · next hs =>
    rw [if_pos hs]
    cases h with
    | unused ho hq hw hl' => rw [hl'] at hl; cases hl
    | queued a la' ho hq hi hh hw hl' =>
      rw [hl', List.cons.injEq] at hl
      exact absurd (congrArg Envelope.type hl.1).symm he
    | lost a ho hq hi hh hcl' hw hl' => rw [hl'] at hl; cases hl
    | sent a wa ho hq hi hh hw hno hqw hql =>
      exact .sent a (wa ++ [e]) ho hq hi hh (by rw [hw]; rfl) (hmove hno) hqw hql
    | both a b ho hq hi hh hh' hno hno' => exact .both a b ho hq hi hh hh' (hmove hno) hno'
  · next hs =>
    rw [if_neg hs]
    cases h with
    | unused ho hq hw hl' hqw hql => rw [hql] at hl; cases hl
    | queued a la' ho hq hi hh hw hl' hno hqw hql => rw [hql] at hl; cases hl
    | lost a ho hq hi hh hcl' hw hl' hqw hql => rw [hql] at hl; cases hl
    | sent a wa ho hq hi hh hw hno hqw hql => rw [hql] at hl; cases hl
    | both a b ho hq hi hh hh' hno hno' => exact .both a b ho hq hi hh hh' hno (hmove hno')

/-- The `OPEN` goes to the wire. -/
theorem OpenedAt.handOpen (h : OpenedAt s n v u) (hl : v.lane = e :: la) (he : e.type = .OPEN) :
    ∃ a, v.obj = some a ∧ ∀ a', a'.id = a.id → a'.openHanded = true →
      OpenedAt s n { v with obj := some a', wire := v.wire ++ [e], lane := la } u := by
  unfold OpenedAt at h
  split at h
  · next hs =>
    cases h with
    | unused ho hq hw hl' => rw [hl'] at hl; cases hl
    | queued a la' ho hq hi hh hw hl' hno hqw hql =>
      rw [hl', List.cons.injEq] at hl
      refine ⟨a, ho, fun a' hid hh' => ?_⟩
      rw [OpenedAt, if_pos hs]
      refine .sent a' [] rfl hq (hid ▸ hi) hh' ?_ (by simpa using hl.2 ▸ hno) hqw hql
      show v.wire ++ [e] = [openFrame n a']
      rw [hw, ← hl.1, openFrame, openFrame, hid]
      rfl
    | lost a ho hq hi hh hcl' hw hl' => rw [hl'] at hl; cases hl
    | sent a wa ho hq hi hh hw hno => exact absurd he (hno e (by rw [hl]; simp))
    | both a b ho hq hi hh hh' hno => exact absurd he (hno e (by rw [hl]; simp))
  · next hs =>
    cases h with
    | unused ho hq hw hl' hqw hql => rw [hql] at hl; cases hl
    | queued a la' ho hq hi hh hw hl' hno hqw hql => rw [hql] at hl; cases hl
    | lost a ho hq hi hh hcl' hw hl' hqw hql => rw [hql] at hl; cases hl
    | sent a wa ho hq hi hh hw hno hqw hql => rw [hql] at hl; cases hl
    | both a b ho hq hi hh hh' hno hno' => exact absurd he (hno' e (by rw [hl]; simp))

/-- A message other than `OPEN` reaches this end: the channel is known here. -/
theorem OpenedAt.recv (h : OpenedAt s n v u) (hw : u.wire = e :: wa) (he : e.type ≠ .OPEN) :
    (∃ c, v.obj = some c ∧ c.openHanded = true) ∧ OpenedAt s n v { u with wire := wa } := by
  unfold OpenedAt at h ⊢
  split at h
  · next hs =>
    rw [if_pos hs]
    cases h with
    | unused ho hq hw' hl' hqw hql => rw [hqw] at hw; cases hw
    | queued a la' ho hq hi hh hw' hl' hno hqw hql => rw [hqw] at hw; cases hw
    | lost a ho hq hi hh hcl' hw' hl' hqw hql => rw [hqw] at hw; cases hw
    | sent a wa ho hq hi hh hw' hno hqw hql => rw [hqw] at hw; cases hw
    | both a b ho hq hi hh hh' hno hno' =>
      refine ⟨⟨a, ho, hh⟩, .both a b ho hq hi hh hh' hno ?_⟩
      rw [hw] at hno'
      exact fun f hf => hno' f (List.mem_cons_of_mem _ hf)
  · next hs =>
    rw [if_neg hs]
    cases h with
    | unused ho hq hw' => rw [hw'] at hw; cases hw
    | queued a la' ho hq hi hh hw' => rw [hw'] at hw; cases hw
    | lost a ho hq hi hh hcl' hw' => rw [hw'] at hw; cases hw
    | sent a wa ho hq hi hh hw' =>
      rw [hw', List.cons.injEq] at hw
      exact absurd (congrArg Envelope.type hw.1).symm he
    | both a b ho hq hi hh hh' hno hno' =>
      refine ⟨⟨b, hq, hh'⟩, .both a b ho hq hi hh hh' ?_ hno'⟩
      rw [hw] at hno
      exact fun f hf => hno f (List.mem_cons_of_mem _ hf)

/-- An `OPEN` reaches this end: it comes from the owner, and the channel is new here. -/
theorem OpenedAt.recvOpen (h : OpenedAt s n v u) (hw : u.wire = e :: wa) (he : e.type = .OPEN) :
    owner n = s.other ∧ v.obj = none ∧ v.wire = [] ∧ v.lane = [] ∧ ∃ a, u.obj = some a ∧
      e = openFrame n a ∧ isChannelId a.id = true ∧
      OpenedAt s n { v with obj := some (Channel.new n a.id false) } { u with wire := wa } := by
  unfold OpenedAt at h
  split at h
  · next hs =>
    cases h with
    | unused ho hq hw' hl' hqw hql => rw [hqw] at hw; cases hw
    | queued a la' ho hq hi hh hw' hl' hno hqw hql => rw [hqw] at hw; cases hw
    | lost a ho hq hi hh hcl' hw' hl' hqw hql => rw [hqw] at hw; cases hw
    | sent a wa ho hq hi hh hw' hno hqw hql => rw [hqw] at hw; cases hw
    | both a b ho hq hi hh hh' hno hno' => exact absurd he (hno' e (by rw [hw]; simp))
  · next hs =>
    have howner := (Side.eq_or s (owner n)).resolve_left hs
    cases h with
    | unused ho hq hw' => rw [hw'] at hw; cases hw
    | queued a la' ho hq hi hh hw' => rw [hw'] at hw; cases hw
    | lost a ho hq hi hh hcl' hw' => rw [hw'] at hw; cases hw
    | sent a wa' ho hq hi hh hw' hno hqw hql =>
      rw [hw', List.cons.injEq] at hw
      refine ⟨howner, hq, hqw, hql, a, ho, hw.1.symm, hi, ?_⟩
      rw [OpenedAt, if_neg hs]
      refine .both a _ ho rfl rfl hh rfl (hw.2 ▸ hno) ?_
      show NoOpen (v.wire ++ v.lane)
      rw [hqw, hql]
      exact fun f hf => absurd hf (by simp)
    | both a b ho hq hi hh hh' hno hno' => exact absurd he (hno e (by rw [hw]; simp))

/-- The end closes: what waits in its lane is lost. -/
theorem OpenedAt.close (h : OpenedAt s n v u) {f : Channel → Channel}
    (hid : ∀ c, (f c).id = c.id) (hop : ∀ c, (f c).openHanded = c.openHanded) :
    OpenedAt s n ⟨v.obj.map f, v.wire, [], true⟩ u := by
  unfold OpenedAt at h ⊢
  split at h
  · next hs =>
    rw [if_pos hs]
    cases h with
    | unused ho hq hw hl hqw hql => exact .unused (by simp [ho]) hq hw rfl hqw hql
    | queued a la ho hq hi hh hw hl hno hqw hql =>
      exact .lost (f a) (by simp [ho]) hq (by rw [hid]; exact hi) (by rw [hop]; exact hh) rfl hw rfl
        hqw hql
    | lost a ho hq hi hh hcl' hw hl hqw hql =>
      exact .lost (f a) (by simp [ho]) hq (by rw [hid]; exact hi) (by rw [hop]; exact hh) rfl hw rfl
        hqw hql
    | sent a wa ho hq hi hh hw hno hqw hql =>
      refine .sent (f a) wa (by simp [ho]) hq (by rw [hid]; exact hi) (by rw [hop]; exact hh) ?_
        (by simpa using hno.left) hqw hql
      rw [hw, openFrame, openFrame, hid]
    | both a b ho hq hi hh hh' hno hno' =>
      exact .both (f a) b (by simp [ho]) hq (by rw [hid]; exact hi) (by rw [hop]; exact hh) hh'
        (by simpa using hno.left) hno'
  · next hs =>
    rw [if_neg hs]
    cases h with
    | unused ho hq hw hl hqw hql => exact .unused ho (by simp [hq]) hw hl hqw rfl
    | queued a la ho hq hi hh hw hl hno hqw hql =>
      exact .queued a la ho (by simp [hq]) hi hh hw hl hno hqw rfl
    | lost a ho hq hi hh hcl' hw hl hqw hql => exact .lost a ho (by simp [hq]) hi hh hcl' hw hl hqw rfl
    | sent a wa ho hq hi hh hw hno hqw hql => exact .sent a wa ho (by simp [hq]) hi hh hw hno hqw rfl
    | both a b ho hq hi hh hh' hno hno' =>
      exact .both a (f b) ho (by simp [hq]) (by rw [hid]; exact hi) hh (by rw [hop]; exact hh') hno
        (by simpa using hno'.left)

end

/-! ### The order of openings -/

/-- The objects of one end by channel number. -/
abbrev Objects := Nat → Option Channel

/-- Channel `m` has ended at the receiver, or ends once it has read the messages `ahead`. -/
def Gone (peer : Objects) (m : Nat) (ahead : List Message) : Prop :=
  ∃ b, peer m = some b ∧ (b.done = true ∨
    (b.ours = true ∧ ∃ e, .binary e ∈ ahead ∧ e.number = m ∧ e.isFinal = true))

/-- The receiver has room for `OPEN n`, and none of its channels has that id, once it has read
    `ahead`. -/
def Room (parity : Nat) (own peer : Objects) (n : Nat) (ahead : List Message) : Prop :=
  ∃ live : List Nat, live.length < openLimit ∧
    (∀ m ∈ live, m % 2 = parity → m < n → ∀ a c, own m = some a → own n = some c → a.id ≠ c.id) ∧
    ∀ m a, m % 2 = parity → m < n → own m = some a → m ∉ live → Gone peer m ahead

/-- The `OPEN`s among the messages `ms` on their way to an end that has seen `highest`. -/
structure Order (parity nextOwn : Nat) (own peer : Objects) (highest : Nat) (ms : List Message) :
    Prop where
  seen : highest < nextOwn
  increasing : ms.Pairwise (fun x y => ∀ e f, x = .binary e → y = .binary f → e.type = .OPEN →
    f.type = .OPEN → e.number < f.number)
  fresh : ∀ e, .binary e ∈ ms → e.type = .OPEN →
    highest < e.number ∧ e.number < nextOwn ∧ e.number % 2 = parity
  room : ∀ ahead e rest, ms = ahead ++ .binary e :: rest → e.type = .OPEN →
    Room parity own peer e.number ahead

/-- What a step of the owner leaves of its own channels. -/
def Kept (parity : Nat) (own own' : Objects) (bound : Nat) : Prop :=
  ∀ m a', m % 2 = parity → m < bound → own' m = some a' → ∃ a, own m = some a ∧ a.id = a'.id

/-- What a step of the receiver does to its objects. -/
def Progress (peer peer' : Objects) : Prop :=
  ∀ m b, peer m = some b → ∃ b', peer' m = some b' ∧ (b.done = true → b'.done = true) ∧
    (b.ours = true → b'.ours = true)

theorem Kept.refl {parity : Nat} (own : Objects) (bound : Nat) : Kept parity own own bound :=
  fun _ a _ _ h => ⟨a, h, rfl⟩

theorem Progress.refl (peer : Objects) : Progress peer peer := fun _ b h => ⟨b, h, id, id⟩

section
variable {parity nextOwn nextOwn' highest n : Nat} {own own' peer peer' : Objects}
  {ms : List Message}

theorem Gone.mono {m : Nat} {ahead ahead' : List Message} (h : Gone peer m ahead)
    (hp : Progress peer peer') (hsub : ∀ x ∈ ahead, x ∈ ahead') : Gone peer' m ahead' := by
  obtain ⟨b, hb, hcase⟩ := h
  obtain ⟨b', hb', hd, ho⟩ := hp m b hb
  refine ⟨b', hb', ?_⟩
  rcases hcase with hdone | ⟨hours, e, he, hn, hf⟩
  · exact .inl (hd hdone)
  · exact .inr ⟨ho hours, e, hsub _ he, hn, hf⟩

theorem Room.mono {ahead ahead' : List Message} (h : Room parity own peer n ahead)
    (hk : Kept parity own own' nextOwn) (hn : n < nextOwn ∧ n % 2 = parity) (hp : Progress peer peer')
    (hsub : ∀ x ∈ ahead, x ∈ ahead') : Room parity own' peer' n ahead' := by
  obtain ⟨live, hlen, hids, hgone⟩ := h
  refine ⟨live, hlen, ?_, ?_⟩
  · intro m hm hpar hmn a' c' ha' hc'
    obtain ⟨a, ha, haid⟩ := hk m a' hpar (by omega) ha'
    obtain ⟨c, hc, hcid⟩ := hk n c' hn.2 hn.1 hc'
    rw [← haid, ← hcid]
    exact hids m hm hpar hmn a c ha hc
  · intro m a' hpar hmn ha' hlive
    obtain ⟨a, ha, -⟩ := hk m a' hpar (by omega) ha'
    exact (hgone m a hpar hmn ha hlive).mono hp hsub

/-- Where a message of `x ++ z ++ y` sits. -/
theorem split_insert {x z y A B : List Message} {m : Message} (h : x ++ z ++ y = A ++ m :: B) :
    (∃ r, x = A ++ m :: r) ∨ m ∈ z ∨ (∃ y₁, y = y₁ ++ m :: B ∧ A = x ++ z ++ y₁) := by
  rcases List.append_eq_append_iff.mp h with ⟨d, hA, hy⟩ | ⟨d, hxz, hmB⟩
  · exact .inr (.inr ⟨d, hy, hA⟩)
  · cases d with
    | nil => exact .inr (.inr ⟨[], by simpa using hmB.symm, by simpa using hxz.symm⟩)
    | cons m' d =>
      simp only [List.cons_append, List.cons.injEq] at hmB
      obtain ⟨rfl, -⟩ := hmB
      rcases List.append_eq_append_iff.mp hxz with ⟨u, hA, hz⟩ | ⟨u, hx, hu⟩
      · exact .inr (.inl (by rw [hz]; simp))
      · cases u with
        | nil => exact .inr (.inl (by simp only [List.nil_append] at hu; rw [← hu]; simp))
        | cons m'' u =>
          simp only [List.cons_append, List.cons.injEq] at hu
          exact .inl ⟨u, by rw [hx, hu.1]⟩

def IsOpen (x : Message) : Prop := ∃ e, x = .binary e ∧ e.type = .OPEN

/-- Messages other than `OPEN` join the way. -/
theorem Order.insert {x z y : List Message}
    (h : Order parity nextOwn own peer highest (x ++ y)) (hz : ∀ m ∈ z, ¬ IsOpen m)
    (hk : Kept parity own own' nextOwn) (hp : Progress peer peer') :
    Order parity nextOwn own' peer' highest (x ++ z ++ y) := by
  refine ⟨h.seen, ?_, ?_, ?_⟩
  · have hxy := List.pairwise_append.mp h.increasing
    refine List.pairwise_append.mpr ⟨List.pairwise_append.mpr ⟨hxy.1, ?_, ?_⟩, hxy.2.1, ?_⟩
    · exact List.Pairwise.imp_of_mem (fun hm _ _ e f he _ ho _ => (hz _ hm ⟨e, he, ho⟩).elim)
        (List.pairwise_of_forall fun _ _ => trivial)
    · exact fun a _ b hb e f _ hf _ ho => (hz b hb ⟨f, hf, ho⟩).elim
    · intro a ha b hb
      rcases List.mem_append.mp ha with ha | ha
      · exact hxy.2.2 a ha b hb
      · exact fun e f he _ ho _ => (hz a ha ⟨e, he, ho⟩).elim
  · intro e he ho
    rcases List.mem_append.mp he with he | he
    · rcases List.mem_append.mp he with he | he
      · exact h.fresh e (List.mem_append_left _ he) ho
      · exact (hz _ he ⟨e, rfl, ho⟩).elim
    · exact h.fresh e (List.mem_append_right _ he) ho
  · intro ahead e rest heq ho
    rcases split_insert heq with ⟨r, hx⟩ | hmem | ⟨y₁, hy, hA⟩
    · have hmem : Message.binary e ∈ x ++ y := by rw [hx]; simp
      have := h.room ahead e (r ++ y) (by rw [hx]; simp) ho
      exact this.mono hk (h.fresh e hmem ho).2 hp (fun _ hm => hm)
    · exact (hz _ hmem ⟨e, rfl, ho⟩).elim
    · have hmem : Message.binary e ∈ x ++ y := by rw [hy]; simp
      have := h.room (x ++ y₁) e rest (by rw [hy]; simp) ho
      refine this.mono hk (h.fresh e hmem ho).2 hp ?_
      rw [hA]
      intro m hm
      rcases List.mem_append.mp hm with hm | hm <;> simp [hm]

/-- The connection drops the messages behind some point. -/
theorem Order.front {x y : List Message} (h : Order parity nextOwn own peer highest (x ++ y))
    (hk : Kept parity own own' nextOwn) (hp : Progress peer peer') :
    Order parity nextOwn own' peer' highest x := by
  refine ⟨h.seen, (List.pairwise_append.mp h.increasing).1,
    fun e he => h.fresh e (List.mem_append_left _ he), ?_⟩
  intro ahead e rest heq ho
  have hmem : Message.binary e ∈ x ++ y := by rw [heq]; simp
  have := h.room ahead e (rest ++ y) (by rw [heq]; simp) ho
  exact this.mono hk (h.fresh e hmem ho).2 hp (fun _ hm => hm)

/-- The receiver has read the first message, and if that was final its channel has come on. -/
theorem Order.tail {x : Message} (h : Order parity nextOwn own peer highest (x :: ms))
    (hp : Progress peer peer')
    (hfinal : ∀ e b, x = .binary e → e.isFinal = true → peer e.number = some b → b.ours = true →
      ∃ b', peer' e.number = some b' ∧ b'.done = true) :
    Order parity nextOwn own peer' highest ms := by
  refine ⟨h.seen, h.increasing.of_cons, fun e he => h.fresh e (List.mem_cons_of_mem _ he), ?_⟩
  intro ahead e rest heq ho
  have hmem : Message.binary e ∈ x :: ms := by rw [heq]; simp
  obtain ⟨live, hlen, hids, hgone⟩ := h.room (x :: ahead) e rest (by rw [heq]; simp) ho
  refine ⟨live, hlen, hids, ?_⟩
  intro m a hpar hmn ha hlive
  obtain ⟨b, hb, hcase⟩ := hgone m a hpar hmn ha hlive
  obtain ⟨b', hb', hd, hours⟩ := hp m b hb
  rcases hcase with hdone | ⟨ho', f, hf, hfn, hff⟩
  · exact ⟨b', hb', .inl (hd hdone)⟩
  · rcases List.mem_cons.mp hf with hf | hf
    · obtain ⟨b'', hb'', hdone⟩ := hfinal f b hf.symm hff (hfn ▸ hb) ho'
      exact ⟨b'', hfn ▸ hb'', .inl hdone⟩
    · exact ⟨b', hb', .inr ⟨hours ho', f, hf, hfn, hff⟩⟩

/-- The receiver has taken the first `OPEN`. -/
theorem Order.opened {e : Envelope} (h : Order parity nextOwn own peer highest (.binary e :: ms))
    (he : e.type = .OPEN) (hp : Progress peer peer') :
    Order parity nextOwn own peer' e.number ms := by
  have hinc := List.pairwise_cons.mp h.increasing
  refine ⟨(h.fresh e List.mem_cons_self he).2.1, hinc.2, ?_, ?_⟩
  · intro f hf ho
    exact ⟨hinc.1 _ hf e f rfl rfl he ho, (h.fresh f (List.mem_cons_of_mem _ hf) ho).2⟩
  · intro ahead f rest heq ho
    have hmem : Message.binary f ∈ .binary e :: ms := by rw [heq]; simp
    obtain ⟨live, hlen, hids, hgone⟩ := h.room (.binary e :: ahead) f rest (by rw [heq]; simp) ho
    refine ⟨live, hlen, hids, ?_⟩
    intro m a hpar hmn ha hlive
    obtain ⟨b, hb, hcase⟩ := hgone m a hpar hmn ha hlive
    obtain ⟨b', hb', hd, hours⟩ := hp m b hb
    rcases hcase with hdone | ⟨ho', g, hg, hgn, hgf⟩
    · exact ⟨b', hb', .inl (hd hdone)⟩
    · rcases List.mem_cons.mp hg with hg | hg
      · -- an OPEN is not final
        cases hg
        simp [Envelope.isFinal, he] at hgf
      · exact ⟨b', hb', .inr ⟨hours ho', g, hg, hgn, hgf⟩⟩

/-- A new `OPEN` joins the way last. -/
theorem Order.snoc {e : Envelope} (h : Order parity nextOwn own peer highest ms)
    (hn : e.number = nextOwn) (hpar : nextOwn % 2 = parity) (hnext : nextOwn < nextOwn') (hk : Kept parity own own' nextOwn)
    (hroom : Room parity own' peer e.number ms) :
    Order parity nextOwn' own' peer highest (ms ++ [.binary e]) := by
  have hhigh := h.seen
  refine ⟨by omega, ?_, ?_, ?_⟩
  · refine List.pairwise_append.mpr ⟨h.increasing, List.pairwise_singleton _ _, ?_⟩
    intro x hx y hy f g hf hg hof hog
    rw [List.mem_singleton.mp hy] at hg
    cases hg
    rw [hn]
    exact (h.fresh f (hf ▸ hx) hof).2.1
  · intro f hf ho
    rcases List.mem_append.mp hf with hf | hf
    · have := h.fresh f hf ho
      omega
    · cases List.mem_singleton.mp hf
      omega
  · intro ahead f rest heq ho
    rcases split_insert (x := ms) (z := []) (by simpa using heq) with ⟨r, hx⟩ | hmem | ⟨y₁, hy, hA⟩
    · have hmem : Message.binary f ∈ ms := by rw [hx]; simp
      exact (h.room ahead f r hx ho).mono hk (h.fresh f hmem ho).2 (.refl _) (fun _ hm => hm)
    · cases hmem
    · cases y₁ with
      | nil =>
        simp only [List.nil_append, List.cons.injEq, Message.binary.injEq] at hy
        rw [hA, ← hy.1]
        simpa using hroom
      | cons x y₁ =>
        simp only [List.cons_append, List.cons.injEq] at hy
        exact absurd hy.2 (by simp)

end

/-! ### The invariant -/

structure PairOk (p : Pair) : Prop where
  ends : ∀ s, EndOk (p.ends s)
  side : ∀ s, (p.ends s).ownParity = s.parity
  chans : ∀ n, ChanAt .worker n (p.view .worker n) (p.view .gateway n)
  order : ∀ s, (p.ends s.other).closed = false →
    Order s.parity (p.ends s).nextOwn (p.ends s).objects (p.ends s.other).objects
      (p.ends s.other).highestPeer (p.wire s ++ (p.ends s).priority)

theorem PairOk.chan {p : Pair} (h : PairOk p) (s : Side) (n : Nat) :
    ChanAt s n (p.view s n) (p.view s.other n) := by
  cases s with
  | worker => exact h.chans n
  | gateway => exact (h.chans n).swap

end Simlock.Link
