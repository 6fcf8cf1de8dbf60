import Simlock.Link.PairRun

/-! What the invariant of a connection says about channels, streams and slots.

    Nothing an end sends is ever held against it, the bytes a reader gets are the bytes that were
    written, and the two counters of open channels say what the table says. -/

namespace Simlock.Link

/-! ### Faults -/

/-- What channel `c`, number `n` at end `s`, may count on: the counters keep within the window, and
    nothing that is on its way to it breaks a rule. `c.allowance` is `CHANNEL_WINDOW` plus the
    credits it received. -/
structure Faultless (p : Pair) (s : Side) (n : Nat) (c : Channel) : Prop where
  valid : ∀ f, c.failure = some f → f.reason ≠ .invalid
  sent : c.handed + c.queuedBytes ≤ c.allowance
  received : c.received ≤ channelWindow + c.granted
  credit : c.allowance + credits ((p.view s.other n).wire ++ (p.view s.other n).lane) ≤
    c.handed + channelWindow
  stopOnce : stops ((p.view s.other n).wire ++ (p.view s.other n).lane) ≤
    if c.stoppedByPeer then 0 else 1
  ended : c.inEnded = true → ∀ e ∈ (p.view s.other n).wire, e.type ≠ .DATA ∧ e.type ≠ .END
  endLast : (p.view s.other n).wire.Pairwise
    (fun e f => e.type = .END → f.type ≠ .DATA ∧ f.type ≠ .END)

theorem not_bulk {e : Envelope} (h : e.isBulk = false) : e.type ≠ .DATA ∧ e.type ≠ .END := by
  simpa [Envelope.isBulk] using h

theorem PairOk.faultless {p : Pair} (h : PairOk p) {s : Side} {n : Nat} {c : Channel}
    (hc : (p.ends s).objects n = some c) : Faultless p s n c := by
  have hobj := (h.ends s).obj n c hc
  have hex := (h.chan s n).exchange
  rw [show (p.view s n).chan n = c by simp [Pair.view, View.chan, hc]] at hex
  obtain ⟨hout, hinto, -, -⟩ := hex
  refine ⟨hobj.ok.valid, hout.snd.window, hinto.rcv.window, ?_, ?_, ?_, ?_⟩
  · have h1 := hout.credit
    have h2 := hout.rcv.granted
    have h3 := hout.rcv.read
    have h4 := hout.received
    simp only [Channel.snd] at h1 h4 ⊢
    omega
  · have h1 := hout.stop
    cases hs : c.stoppedByPeer with
    | true => exact le_of_eq (hout.stopped hs).2
    | false =>
      refine le_trans h1 ?_
      split <;> simp
  · exact fun he e hmem => not_bulk (hinto.ended he e hmem)
  · exact hinto.endLast.imp fun hef he => not_bulk (hef he)

/-- Two conforming ends never fault each other. -/
theorem conforming_ends_never_fault (acts : List Pair.Action) (s : Side) :
    (∀ w ∈ ((Lib.run Pair.step Pair.create acts).ends s).warnings, w = .noNumbersLeft) ∧
      ∀ n c, ((Lib.run Pair.step Pair.create acts).ends s).objects n = some c →
        Faultless (Lib.run Pair.step Pair.create acts) s n c := by
  have h := PairOk.run acts
  exact ⟨(h.ends s).warnings, fun n c hc => h.faultless hc⟩

/-- A channel is opened, two bytes are written to it and read at the other end. -/
def passTwoBytes : List Pair.Action :=
  [.act .worker (.generate ["a"]), .act .worker (.openChannel 0), .pump .worker,
    .receive .gateway 0, .act .gateway (.acceptChannel "a"),
    .act .worker (.app 1 (.write [7, 8])), .act .worker (.sink 1), .pump .worker,
    .receive .gateway 0, .act .gateway (.app 1 (.read 0))]

theorem conforming_ends_never_fault_passTwoBytes :
    (((Lib.run Pair.step Pair.create passTwoBytes).ends .gateway).objects 1).any
        (fun c => c.received = 2 ∧ c.readTotal = 2) = true ∧
      ∀ c, ((Lib.run Pair.step Pair.create passTwoBytes).ends .gateway).objects 1 = some c →
        Faultless (Lib.run Pair.step Pair.create passTwoBytes) .gateway 1 c :=
  ⟨by decide +kernel, fun c hc => (conforming_ends_never_fault passTwoBytes .gateway).2 1 c hc⟩

/-! ### Streams -/

/-- The bytes written to channel `n` at end `s`. -/
def Pair.written (p : Pair) (s : Side) (n : Nat) : Bytes :=
  ((p.ends s).objects n).elim [] Channel.written

/-- The bytes the reader of channel `n` at end `s` has been given. -/
def Pair.given (p : Pair) (s : Side) (n : Nat) : Bytes :=
  ((p.ends s).objects n).elim [] (fun c => c.given.flatten)

/-- The reader of channel `n` at end `s` has seen a normal close. -/
def Pair.closedNormally (p : Pair) (s : Side) (n : Nat) : Bool :=
  ((p.ends s).objects n).any (fun c => c.readable = .closed)

/-- The writer of channel `n` at end `s` has closed its stream. -/
def Pair.writerClosed (p : Pair) (s : Side) (n : Nat) : Bool :=
  ((p.ends s).objects n).any (fun c => c.writable = .closed)

/-- The bytes a reader was given are a prefix of the bytes the other end wrote to the channel, and
    it sees a normal close only with all of them, after the writer closed. -/
theorem reader_given_prefix_of_written (acts : List Pair.Action) (s : Side) (n : Nat) :
    (Lib.run Pair.step Pair.create acts).given s n <+:
        (Lib.run Pair.step Pair.create acts).written s.other n ∧
      ((Lib.run Pair.step Pair.create acts).closedNormally s n = true →
        (Lib.run Pair.step Pair.create acts).given s n =
            (Lib.run Pair.step Pair.create acts).written s.other n ∧
          (Lib.run Pair.step Pair.create acts).writerClosed s.other n = true) := by
  generalize hp : Lib.run Pair.step Pair.create acts = p
  have h : PairOk p := hp ▸ PairOk.run acts
  have hinto := (h.chan s n).exchange.into
  have hgiven : p.given s n = ((p.view s n).chan n).rcv.given := by
    cases hc : (p.ends s).objects n <;>
      simp [Pair.given, Pair.view, View.chan, hc, Channel.rcv, Channel.new]
  have hwritten : p.written s.other n = ((p.view s.other n).chan n).snd.written := by
    cases hc : (p.ends s.other).objects n <;>
      simp [Pair.written, Pair.view, View.chan, hc, Channel.snd, Channel.new]
  rw [hgiven, hwritten]
  refine ⟨hinto.given, fun hcl => ?_⟩
  have hread : ((p.view s n).chan n).rcv.readable = .closed := by
    cases hc : (p.ends s).objects n with
    | none => simp [Pair.closedNormally, hc] at hcl
    | some c => simpa [Pair.closedNormally, hc, Pair.view, View.chan, Channel.rcv] using hcl
  obtain ⟨h1, h2⟩ := hinto.closed hread
  refine ⟨h1, ?_⟩
  cases hc : (p.ends s.other).objects n with
  | none => simp [Pair.view, View.chan, hc, Channel.snd, Channel.new] at h2
  | some c => simpa [Pair.writerClosed, hc, Pair.view, View.chan, Channel.snd] using h2

/-- The writer closes behind its two bytes, and the reader reads on. -/
def passAndClose : List Pair.Action :=
  passTwoBytes ++ [.act .worker (.app 1 .close), .act .worker (.sink 1), .pump .worker,
    .receive .gateway 0, .act .gateway (.app 1 (.read 0))]

theorem reader_given_prefix_of_written_passAndClose :
    (Lib.run Pair.step Pair.create passAndClose).given .gateway 1 = [7, 8] ∧
      (Lib.run Pair.step Pair.create passAndClose).given .gateway 1 =
        (Lib.run Pair.step Pair.create passAndClose).written .worker 1 :=
  ⟨by decide +kernel,
    ((reader_given_prefix_of_written passAndClose .gateway 1).2 (by decide +kernel)).1⟩

/-! ### Slots -/

/-- The live channels of an end that the end itself opened. -/
def liveOwn (l : Link) : Nat := l.channels.countP (fun n => (l.objects n).any (·.ownedByUs))

/-- The live channels of an end that its peer opened. -/
def livePeer (l : Link) : Nat := l.channels.countP (fun n => (l.objects n).any (!·.ownedByUs))

/-- No message is on the wire, and no `OPEN` waits in a priority lane. -/
def Quiet (p : Pair) : Prop :=
  ∀ s, p.wire s = [] ∧ ∀ m ∈ (p.ends s).priority, ¬ IsOpen m

theorem EndOk.counts {l : Link} (h : EndOk l) (hcl : l.closed = false) :
    l.ownOpen = liveOwn l ∧ l.peerOpen = livePeer l := by
  have howned : ∀ n ∈ l.channels, ∃ c, l.objects n = some c ∧
      (c.ownedByUs = true ↔ n % 2 = l.ownParity) := by
    intro n hn
    obtain ⟨c, hc⟩ := h.known n hn
    exact ⟨c, hc, (h.obj n c hc).owned⟩
  refine ⟨?_, ?_⟩
  · rw [h.ownOpen hcl, liveOwn]
    congr 1
    refine List.countP_congr fun n hn => ?_
    obtain ⟨c, hc, hiff⟩ := howned n hn
    simp [hc, hiff]
  · rw [h.peerOpen hcl, livePeer]
    congr 1
    refine List.countP_congr fun n hn => ?_
    obtain ⟨c, hc, hiff⟩ := howned n hn
    simp only [hc, Option.any_some, Bool.not_eq_true', decide_eq_true_eq, ne_eq]
    rw [← hiff, Bool.not_eq_true]

/-- Of two connected ends with nothing on its way, a channel that lives at one lives at the other. -/
theorem PairOk.live_of_quiet {p : Pair} (h : PairOk p) {s : Side}
    (hcl : (p.ends s).closed = false) (hcl' : (p.ends s.other).closed = false) (hq : Quiet p)
    {n : Nat} (hn : n ∈ (p.ends s).channels) : n ∈ (p.ends s.other).channels := by
  obtain ⟨a, ha⟩ := (h.ends s).known n hn
  have hwire : ∀ t, (p.view t n).wire = [] := fun t => by simp [Pair.view, (hq t).1, numbered]
  have hlane : ∀ t e, e ∈ (p.view t n).lane → e.type ≠ .OPEN := fun t e he ho =>
    (hq t).2 _ (mem_of_numbered he).1 ⟨e, rfl, ho⟩
  -- with no OPEN on its way the channel is known at both ends
  obtain ⟨b, hb⟩ : ∃ b, (p.ends s.other).objects n = some b := by
    have hop := (h.chan s n).opened
    unfold OpenedAt at hop
    split at hop
    · cases hop with
      | unused ho => rw [show (p.view s n).obj = some a from ha] at ho; cases ho
      | queued a la ho hq' hid hh hw hl =>
        exact absurd rfl (hlane s (openFrame n a) (by rw [hl]; simp))
      | lost a ho hq' hid hh hc => exact absurd (hcl.symm.trans hc) (by decide)
      | sent a wa ho hq' hid hh hw => rw [hwire] at hw; cases hw
      | both a b ho hq' => exact ⟨b, hq'⟩
    · cases hop with
      | unused ho hq' => rw [show (p.view s n).obj = some a from ha] at hq'; cases hq'
      | queued a la ho hq' => exact ⟨a, ho⟩
      | lost a ho hq' => exact ⟨a, ho⟩
      | sent a wa ho hq' => exact ⟨a, ho⟩
      | both a b ho hq' => exact ⟨a, ho⟩
  have hlive : a.done = false := (((h.ends s).obj n a ha).live hcl).mp hn
  refine (((h.ends s.other).obj n b hb).live hcl').mpr ?_
  by_contra hne
  have hgone := h.gone (s := s.other) hb (by simpa using hne) hcl' (by rwa [Side.other_other]) []
  rw [Side.other_other, (hq s.other).1, List.append_nil] at hgone
  obtain ⟨a', ha', hdone | ⟨-, e, he, -⟩⟩ := hgone
  · cases ha.symm.trans ha'
    rw [hlive] at hdone; cases hdone
  · cases he

/-- The slots of connected ends: the counters count the live channels, the ends agree on them when
    nothing is on the wire and no `OPEN` waits, and an `OPEN` that arrives makes a channel. -/
theorem slots_of_connected_ends (acts : List Pair.Action) (s : Side)
    (hcl : ((Lib.run Pair.step Pair.create acts).ends s).closed = false) :
    (((Lib.run Pair.step Pair.create acts).ends s).ownOpen =
        liveOwn ((Lib.run Pair.step Pair.create acts).ends s) ∧
      ((Lib.run Pair.step Pair.create acts).ends s).peerOpen =
        livePeer ((Lib.run Pair.step Pair.create acts).ends s)) ∧
    (((Lib.run Pair.step Pair.create acts).ends s.other).closed = false →
      Quiet (Lib.run Pair.step Pair.create acts) → ∀ n,
      n ∈ ((Lib.run Pair.step Pair.create acts).ends s).channels ↔
        n ∈ ((Lib.run Pair.step Pair.create acts).ends s.other).channels) ∧
    (∀ e rest again, (Lib.run Pair.step Pair.create acts).wire s.other = .binary e :: rest →
      e.type = .OPEN → e.number ∈
        (((Lib.run Pair.step Pair.create acts).step (.receive s again)).ends s).channels ∧
        (((Lib.run Pair.step Pair.create acts).step (.receive s again)).ends s).warnings =
          ((Lib.run Pair.step Pair.create acts).ends s).warnings) := by
  generalize hp : Lib.run Pair.step Pair.create acts = p at *
  have h : PairOk p := hp ▸ PairOk.run acts
  refine ⟨(h.ends s).counts hcl, fun hcl' hq n => ⟨?_, ?_⟩, ?_⟩
  · exact h.live_of_quiet hcl hcl' hq
  · intro hn
    have := h.live_of_quiet hcl' (by rwa [Side.other_other]) hq hn
    rwa [Side.other_other] at this
  · intro e rest again hw he
    obtain ⟨a, -, heq, -⟩ := h.onMessage_open hcl hw he again
    simp only [Pair.step, hcl, hw, heq, Bool.false_eq_true, if_false, Function.update_self]
    exact ⟨List.mem_append_right _ (List.mem_singleton_self _), rfl⟩

theorem slots_of_connected_ends_passTwoBytes :
    ((Lib.run Pair.step Pair.create passTwoBytes).ends .gateway).peerOpen = 1 ∧
      (1 ∈ ((Lib.run Pair.step Pair.create passTwoBytes).ends .worker).channels ↔
        1 ∈ ((Lib.run Pair.step Pair.create passTwoBytes).ends .gateway).channels) := by
  refine ⟨by decide +kernel, (slots_of_connected_ends passTwoBytes .worker
    (by decide +kernel)).2.1 (by decide +kernel) ?_ 1⟩
  intro t
  cases t with
  | worker =>
    have h1 : (Lib.run Pair.step Pair.create passTwoBytes).wire .worker = [] := by decide +kernel
    have h2 : ((Lib.run Pair.step Pair.create passTwoBytes).ends .worker).priority = [] := by
      decide +kernel
    exact ⟨h1, by simp [h2]⟩
  | gateway =>
    have h1 : (Lib.run Pair.step Pair.create passTwoBytes).wire .gateway = [] := by decide +kernel
    have h2 : ((Lib.run Pair.step Pair.create passTwoBytes).ends .gateway).priority =
        [.binary (encodeCredit 1 2)] := by decide +kernel
    exact ⟨h1, by simp [h2, IsOpen, encodeCredit]⟩

/-- No channel of end `l` has an `END` or a `RESET` that is not handed over yet. -/
def NothingUnsent (l : Link) : Prop :=
  ∀ n c, l.objects n = some c →
    (c.endQueued = true → c.endHanded = true) ∧ (c.resetQueued = true → c.resetHanded = true)

/-- A channel lives at its owner from the moment it is opened there, before its `OPEN` is sent. -/
theorem opened_channel_lives_at_owner_alone : ¬ ∀ acts : List Pair.Action,
    (∀ s, ((Lib.run Pair.step Pair.create acts).ends s).closed = false) →
    (∀ s, (Lib.run Pair.step Pair.create acts).wire s = []) →
    (∀ s, NothingUnsent ((Lib.run Pair.step Pair.create acts).ends s)) →
    ∀ n, n ∈ ((Lib.run Pair.step Pair.create acts).ends .worker).channels ↔
      n ∈ ((Lib.run Pair.step Pair.create acts).ends .gateway).channels := by
  intro hall
  have hone := hall [.act .worker (.generate ["a"]), .act .worker (.openChannel 0)] ?_ ?_ ?_ 1
  · revert hone
    decide +kernel
  · intro s
    cases s <;> decide +kernel
  · intro s
    cases s <;> decide +kernel
  · -- the only channel is number 1 at the worker
    intro s n c hc
    have hobj := ((PairOk.run _).ends s).obj n c hc
    have hpos := hobj.pos
    by_cases hpar : n % 2 = ((Lib.run Pair.step Pair.create [.act .worker (.generate ["a"]),
        .act .worker (.openChannel 0)]).ends s).ownParity
    · have hown := hobj.own hpar
      cases s with
      | gateway =>
        have : n < 2 := hown
        have : n % 2 = 0 := hpar
        omega
      | worker =>
        have h3 : n < 3 := by
          refine lt_of_lt_of_eq hown ?_
          decide +kernel
        have : n % 2 = 1 := hpar
        obtain rfl : n = 1 := by omega
        have hall : (((Lib.run Pair.step Pair.create [.act .worker (.generate ["a"]),
            .act .worker (.openChannel 0)]).ends .worker).objects 1).all
              (fun c => !c.endQueued && !c.resetQueued) = true := by decide +kernel
        rw [hc] at hall
        simp only [Option.all_some, Bool.and_eq_true, Bool.not_eq_true'] at hall
        simp [hall]
    · have hpeer := hobj.peer hpar
      have : n ≤ 0 := by
        refine le_of_le_of_eq hpeer ?_
        cases s <;> decide +kernel
      omega

end Simlock.Link
