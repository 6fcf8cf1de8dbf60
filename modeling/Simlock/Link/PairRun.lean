import Mathlib.Data.List.Perm.Subperm
import Simlock.Link.PairSteps

/-! The invariant of a connection over whole runs.

    One lemma for each action of a connection, and from them, by induction over the actions, that
    every state of every run is sound. A message of the priority lane runs its callback on the
    channel it belongs to, a queue item the callback of the item, and a received message is either
    an `OPEN`, or for a live channel, or late. -/

namespace Simlock.Link

section
variable {p : Pair} {s : Side} {n : Nat} {c : Channel}

/-! ### Handing over -/

theorem OpenedAt.laneObj {v u : View} {e : Envelope} {la : List Envelope}
    (h : OpenedAt s n v u) (hl : v.lane = e :: la) : ∃ a, v.obj = some a := by
  unfold OpenedAt at h
  split at h
  · cases h with
    | unused ho hq hw hl' => rw [hl'] at hl; cases hl
    | queued a la' ho => exact ⟨a, ho⟩
    | lost a ho => exact ⟨a, ho⟩
    | sent a wa ho => exact ⟨a, ho⟩
    | both a b ho => exact ⟨a, ho⟩
  · cases h with
    | unused ho hq hw hl' hqw hql => rw [hql] at hl; cases hl
    | queued a la' ho hq hi hh hw hl' hno hqw hql => rw [hql] at hl; cases hl
    | lost a ho hq hi hh hcl' hw hl' hqw hql => rw [hql] at hl; cases hl
    | sent a wa ho hq hi hh hw hno hqw hql => rw [hql] at hl; cases hl
    | both a b ho hq => exact ⟨b, hq⟩

/-- A channel that runs nothing is left as it is. -/
theorem on_nothing {l : Link} (hc : l.objects n = some c) : l.on n (fun c => (c, [])) = l := by
  unfold Link.on
  rw [hc]
  show l.put n c = l
  rw [Link.put, ← hc, Function.update_eq_self]

/-- A priority message of a channel goes to the wire. -/
theorem PairOk.sendEnvelope {e : Envelope} {rest : List Message} {x : Nat} (h : PairOk p)
    (hcl : (p.ends s).closed = false) (hpr : (p.ends s).priority = .binary e :: rest) :
    PairOk (p.set s
      (({ p.ends s with priority := rest, prioritySinceBulk := x } : Link).onPriorityHanded e)
      (wrote p s (.binary e))) := by
  have hat := h.chan s e.number
  have hlane : (p.view s e.number).lane = e :: numbered e.number rest := by
    simp [Pair.view, hpr, numbered]
  obtain ⟨c, hobj⟩ := hat.opened.laneObj hlane
  have hc : (p.ends s).objects e.number = some c := hobj
  have hok := (h.ends s).obj _ c hc
  have hd := hok.done (.inl hcl)
  have hex := hat.exchange
  have hchan : (p.view s e.number).chan e.number = c := by simp [Pair.view, View.chan, hc]
  rw [hlane, hchan] at hex
  have hview : (p.view s e.number).closed = (p.ends s).closed := rfl
  -- a message other than `OPEN`, with what its callback makes of the channel
  have hother : e.type ≠ .OPEN → ∀ c' : Channel, c'.id = c.id → c'.openHanded = c.openHanded →
      OpenedAt s e.number ⟨some c', (p.view s e.number).wire ++ [e], numbered e.number rest,
        (p.ends s).closed⟩ (p.view s.other e.number) := by
    intro hno c' hid hop
    have hnil : NoOpen [] := fun _ he => by cases he
    have := (hat.opened.handLane hlane hno).step hobj hid hop hnil (fun _ => rfl)
    simpa [hview] using this
  unfold Link.onPriorityHanded
  split
  · next ht =>
    obtain ⟨h1, h2, h3⟩ := hex.handOpen hok.ok hd ht
    obtain ⟨a, ha, hopened⟩ := hat.opened.handOpen hlane ht
    cases hobj.symm.trans ha
    exact h.handPriority hcl hpr hc h2 h3 h1 (hopened _ rfl rfl)
  · next ht =>
    obtain ⟨h1, h2, h3⟩ := hex.handReset hok.ok hd ht
    refine h.handPriority hcl hpr hc h2 h3 h1 (hother (by simp [ht]) _ h2.id ?_)
    simp only [Channel.onResetHanded, Channel.checkDone]
    split
    · rfl
    · split <;> rfl
  · next ho hr =>
    have hon := on_nothing
      (l := { p.ends s with priority := rest, prioritySinceBulk := x }) hc
    rw [← hon]
    exact h.handPriority hcl hpr hc ((LocalStep.refl c).chan hok.ok hd) rfl
      (hex.handQuiet (by simpa using hr)) (hother (by simpa using ho) c rfl rfl)

/-- A text goes to the wire. -/
theorem PairOk.sendText {t : String} {rest : List Message} {x : Nat} (h : PairOk p)
    (hcl : (p.ends s).closed = false) (hpr : (p.ends s).priority = .text t :: rest) :
    PairOk (p.set s { p.ends s with priority := rest, prioritySinceBulk := x }
      (wrote p s (.text t))) := by
  have hend := h.ends s
  have hwire : ∀ k, numbered k (wrote p s (.text t) s) = numbered k (p.wire s) := fun k => by
    simp [numbered]
  have hlane : ∀ k, numbered k rest = numbered k (p.ends s).priority := fun k => by
    simp [hpr, numbered]
  refine h.set 0 ?_ rfl (fun _ _ => rfl) rfl (fun k _ => hlane k) ?_ ?_ ?_ ?_
  · exact hend.same ⟨rfl, rfl, rfl, rfl, rfl, rfl, rfl, rfl⟩ (fun _ hq => hq) (fun _ hk => hk)
      (fun hc' => absurd (hcl.symm.trans hc') (by decide)) hend.warnings
  · intro t k _
    rcases Side.eq_or s t with rfl | rfl
    · exact hwire k
    · rw [wrote_other]
  · rw [wrote_otherView, linkView, hwire, hlane]
    exact h.chan s 0
  · intro hcl'
    have hord := h.order s hcl'
    rw [hpr] at hord
    rw [wrote_self]
    exact hord.moveHead (.refl _ _) (.refl _)
  · intro _
    rw [wrote_other]
    exact h.orderOther hcl (.refl _)

/-- The next queue item of a channel goes to the wire. -/
theorem PairOk.sendItem {i : QueueItem} {q : List QueueItem} {rest : List Nat} (h : PairOk p)
    (hcl : (p.ends s).closed = false) (hr : (p.ends s).ring = n :: rest)
    (hc : (p.ends s).objects n = some c) (hq : c.queue = i :: q) (u : Nat) :
    PairOk (p.set s
      ((({ ((p.ends s).put n { c with queue := q }).rotate n rest (!q.isEmpty) with
          prioritySinceBulk := 0 } : Link)).on n (fun c => c.onItemHanded i u))
      (wrote p s (.binary i.envelope))) := by
  have hend := h.ends s
  have hobj := hend.obj n c hc
  have hd := hobj.done (.inl hcl)
  have hat := h.chan s n
  have hchan : (p.view s n).chan n = c := by simp [Pair.view, View.chan, hc]
  have hex := hat.exchange
  rw [hchan] at hex
  obtain ⟨hex', hstep, hfs⟩ := hex.handItem hobj.ok hd hq u
  have hitem : i.envelope.type ≠ .OPEN := by
    rcases hex.out.snd.items i (by simp [Channel.snd, hq]) with ⟨-, ht, -⟩ | ⟨-, ht, -⟩ <;> simp [ht]
  have hnum : i.envelope.number = n :=
    (hobj.ok.items i (by simp [hq])).trans hobj.number
  have hopen : c.openHanded = true := by
    obtain ⟨c', h1, h2⟩ := hend.ring n (by simp [hr])
    cases hc.symm.trans h1
    exact h2
  generalize hl₀ : ({ ((p.ends s).put n { c with queue := q }).rotate n rest (!q.isEmpty) with
    prioritySinceBulk := 0 } : Link) = l₀
  obtain ⟨ring, inRing, hring, heq⟩ : ∃ ring inRing, (∀ k ∈ ring, k ∈ (p.ends s).ring) ∧
      l₀ = { (p.ends s).touch n { c with queue := q } [] ring inRing with
        prioritySinceBulk := 0 } := by
    subst hl₀
    unfold Link.rotate
    split
    · refine ⟨rest ++ [n], _, ?_, by simp [Link.touch, Link.put]; rfl⟩
      rw [hr]
      simp only [List.mem_append, List.mem_cons]
      tauto
    · refine ⟨rest, _, ?_, by simp [Link.touch, Link.put]; rfl⟩
      rw [hr]
      exact fun k hk => List.mem_cons_of_mem _ hk
  clear hl₀
  subst heq
  have htouch : EndOk ((p.ends s).touch n { c with queue := q } [] ring inRing) := by
    refine hend.touch hc ⟨⟨hobj.ok.tail, hobj.ok.want, hobj.ok.valid, ?_⟩, rfl, rfl, rfl,
      fun ho => ho, fun ho => ho⟩ rfl (fun _ => hd) (fun k hk => .inl (hring k hk))
    exact fun j hj => hobj.ok.items j (by rw [hq]; exact List.mem_cons_of_mem _ hj)
  have hcl₀ : ((p.ends s).touch n { c with queue := q } [] ring inRing).closed = false := hcl
  have hend₀ : EndOk { (p.ends s).touch n { c with queue := q } [] ring inRing with
      prioritySinceBulk := 0 } :=
    htouch.same ⟨rfl, rfl, rfl, rfl, rfl, rfl, rfl, rfl⟩ (fun _ h => h) (fun _ h => h)
      (fun hc' => absurd (hcl.symm.trans hc') (by decide)) htouch.warnings
  have hprio : ((p.ends s).touch n { c with queue := q } [] ring inRing).priority =
      (p.ends s).priority := by simp [Link.touch]
  refine PairOk.event hend₀ hcl₀ (Function.update_self _ _ _)
    (hstep.of_pre rfl rfl rfl rfl rfl rfl) ?_
  intro l' hrep
  rw [hfs] at hrep
  have hlane : ∀ l : Link, laneFrames l [] = [] := fun l => by unfold laneFrames; split <;> rfl
  have hwire : numbered n (wrote p s (.binary i.envelope) s) =
      (p.view s n).wire ++ [i.envelope] := by simp [Pair.view, numbered, hnum]
  refine h.replaced hrep ⟨rfl, rfl, rfl, rfl, fun k hk => Function.update_of_ne hk _ _, ?_⟩
    (by simp) (wrote_numbered hnum) ⟨?_, ?_⟩ ?_ ?_
  · intro k _
    rw [← hprio]
  · rw [wrote_otherView, hlane, List.append_nil, hwire, hprio]
    exact hex'
  · rw [wrote_otherView, hlane, List.append_nil, hwire, hprio]
    have hstep' := (hat.opened.handItem (c := c) hc hopen hitem).step (c := c) hc hstep.id
      (show _ = c.openHanded from (hstep.opened hopen).trans hopen.symm)
      (fun e he => absurd he (by simp)) (fun _ => rfl)
    rw [List.append_nil] at hstep'
    exact hstep'
  · intro hcl'
    have := (h.order s hcl').insert (z := [.binary i.envelope]) ?_ (hstep.toObjStep.kept hc _)
      (.refl _)
    · rw [wrote_self, hlane, hprio]
      simpa using this
    · rintro m hm ⟨e, rfl, ho⟩
      cases List.mem_singleton.mp hm
      exact hitem ho
  · intro _
    rw [wrote_other]
    exact h.orderOther hcl (hstep.toObjStep.progress hc hstep.done_mono)

/-- One turn of the pump. -/
theorem PairOk.pump (h : PairOk p) : PairOk (p.step (.pump s)) := by
  have hend := h.ends s
  have hsame : Function.update p.wire s (p.wire s ++ []) = p.wire := by simp
  have hquiet : ∀ l : Link, SameTable (p.ends s) l → l.unaccepted = (p.ends s).unaccepted →
      (∀ k ∈ l.ring, k ∈ (p.ends s).ring) → l.priority = (p.ends s).priority →
      l.warnings = (p.ends s).warnings →
      PairOk ⟨Function.update p.ends s l,
        Function.update p.wire s (p.wire s ++ (none : Option Message).toList)⟩ := by
    intro l ht hun hring hpr hw
    have := h.quiet ht (fun q hq => hun ▸ hq) hring hpr (fun w hw' => hend.warnings w (hw ▸ hw'))
    simpa [Pair.set] using this
  have hrefl : SameTable (p.ends s) (p.ends s) := ⟨rfl, rfl, rfl, rfl, rfl, rfl, rfl, rfl⟩
  show PairOk ⟨Function.update p.ends s (p.ends s).pump.1,
    Function.update p.wire s (p.wire s ++ (p.ends s).pump.2.toList)⟩
  unfold Link.pump
  split
  · exact hquiet _ hrefl rfl (fun _ hk => hk) rfl rfl
  next hcl =>
  have hcl : (p.ends s).closed = false := by simpa using hcl
  dsimp only
  split
  · unfold sendPriority
    split
    · exact hquiet _ hrefl rfl (fun _ hk => hk) rfl rfl
    · next t rest hpr => exact h.sendText hcl hpr
    · next e rest hpr => exact h.sendEnvelope hcl hpr
  split
  swap
  · exact hquiet _ hrefl rfl (fun _ hk => hk) rfl rfl
  unfold sendBulk
  split
  · exact hquiet _ hrefl rfl (fun _ hk => hk) rfl rfl
  next n rest hr =>
  have hgone : PairOk ⟨Function.update p.ends s ((p.ends s).rotate n rest false),
      Function.update p.wire s (p.wire s ++ (none : Option Message).toList)⟩ :=
    hquiet _ ⟨rfl, rfl, rfl, rfl, rfl, rfl, rfl, rfl⟩ rfl
      (fun k hk => by rw [hr]; exact List.mem_cons_of_mem _ hk) rfl rfl
  split
  · exact hgone
  next c hc =>
  split
  · exact hgone
  · next item queue hq => exact h.sendItem hcl hr hc hq _

/-! ### Receiving -/

/-- The wires after end `s` has read the first message of the other end. -/
def took (p : Pair) (s : Side) (rest : List Message) : Side → List Message :=
  Function.update p.wire s.other rest

@[simp] theorem took_self {rest : List Message} : took p s rest s = p.wire s :=
  Function.update_of_ne (Side.other_ne s).symm _ _

@[simp] theorem took_other {rest : List Message} : took p s rest s.other = rest :=
  Function.update_self _ _ _

theorem took_otherView {rest : List Message} :
    otherView p s (took p s rest) n = { p.view s.other n with wire := numbered n rest } := by
  simp [otherView, Pair.view]

theorem took_numbered {m : Message} {rest : List Message} (hw : p.wire s.other = m :: rest)
    (hm : ∀ k, k ≠ n → numbered k (m :: rest) = numbered k rest) :
    ∀ t k, k ≠ n → numbered k (took p s rest t) = numbered k (p.wire t) := by
  intro t k hk
  rcases Side.eq_or s t with rfl | rfl
  · rw [took_self]
  · rw [took_other, hw, hm k hk]

/-- A channel known at one end, though not its owner's, is known at the other, under the same id. -/
theorem PairOk.known (h : PairOk p) {k : Nat} {b : Channel} (hb : (p.ends s).objects k = some b)
    (hk : k % 2 ≠ s.parity) : ∃ a, (p.ends s.other).objects k = some a ∧ b.id = a.id := by
  have hop := (h.chan s k).opened
  have hv : (p.view s k).obj = some b := hb
  rw [OpenedAt, if_neg (fun ho => hk (owner_eq_iff.mp ho))] at hop
  cases hop with
  | unused ho hq => rw [hq] at hv; cases hv
  | queued a la ho hq => rw [hq] at hv; cases hv
  | lost a ho hq => rw [hq] at hv; cases hv
  | sent a wa ho hq => rw [hq] at hv; cases hv
  | both a b' ho hq hid =>
    cases hv.symm.trans hq
    exact ⟨a, ho, hid⟩

/-- An `OPEN` that arrives is taken: its number is new, there is room, and its id is free. -/
theorem PairOk.accepts (h : PairOk p) (hcl : (p.ends s).closed = false) {e : Envelope}
    {rest : List Message} (hw : p.wire s.other = .binary e :: rest) (he : e.type = .OPEN)
    {a : Channel} (ha : (p.ends s.other).objects e.number = some a) :
    (p.ends s).highestPeer < e.number ∧ (p.ends s).peerOpen < openLimit ∧
      ∀ q ∈ (p.ends s).unaccepted, q.1 ≠ a.id := by
  have hend := h.ends s
  have hord := h.orderOther (s := s) hcl (.refl _)
  rw [hw, List.cons_append] at hord
  obtain ⟨hhigh, -, hpar⟩ := hord.fresh e List.mem_cons_self he
  obtain ⟨live, hlen, hids, hgone⟩ := hord.room [] e _ rfl he
  -- a live channel of the peer is among the `live` ones
  have hlive : ∀ k ∈ (p.ends s).channels, k % 2 ≠ (p.ends s).ownParity →
      k ∈ live ∧ k % 2 = s.other.parity ∧ k < e.number ∧
        ∃ a' b, (p.ends s.other).objects k = some a' ∧ (p.ends s).objects k = some b ∧
          b.id = a'.id := by
    intro k hk hkpar
    obtain ⟨b, hb⟩ := hend.known k hk
    have hkpar' : k % 2 ≠ s.parity := h.side s ▸ hkpar
    obtain ⟨a', ha', hid⟩ := h.known hb hkpar'
    have hkother : k % 2 = s.other.parity :=
      owner_eq_iff.mp ((Side.eq_or s (owner k)).resolve_left fun ho => hkpar' (owner_eq_iff.mp ho))
    have hlt : k < e.number := lt_of_le_of_lt ((hend.obj k b hb).peer hkpar) hhigh
    refine ⟨?_, hkother, hlt, a', b, ha', hb, hid⟩
    by_contra hnot
    obtain ⟨b', hb', hdone | ⟨-, f, hf, -⟩⟩ := hgone k a' hkother hlt ha' hnot
    · cases hb.symm.trans hb'
      have := ((hend.obj k b hb).live hcl).mp hk
      rw [hdone] at this; cases this
    · cases hf
  refine ⟨hhigh, ?_, ?_⟩
  · rw [hend.peerOpen hcl, List.countP_eq_length_filter]
    have hsub : (p.ends s).channels.filter (fun k => decide (k % 2 ≠ (p.ends s).ownParity)) ⊆ live := by
      intro k hk
      obtain ⟨hk1, hk2⟩ := List.mem_filter.mp hk
      exact (hlive k hk1 (by simpa using hk2)).1
    have := (List.subperm_of_subset (hend.nodup.filter _) hsub).length_le
    omega
  · intro q hq heq
    obtain ⟨h1, h2, c, h3, h4⟩ := hend.unaccepted q hq
    obtain ⟨hmem, hqpar, hlt, a', b, ha', hb, hid⟩ := hlive q.2 h1 h2
    cases h3.symm.trans hb
    exact hids q.2 hmem hqpar hlt a' a ha' ha (by rw [← hid, h4, heq])

/-- The other end's `OPEN` makes a channel here. -/
theorem PairOk.onMessage_open (h : PairOk p) (hcl : (p.ends s).closed = false) {e : Envelope}
    {rest : List Message} (hw : p.wire s.other = .binary e :: rest) (he : e.type = .OPEN)
    (again : Nat) : ∃ a, (p.ends s.other).objects e.number = some a ∧
      (p.ends s).onMessage again (.binary e) = (p.ends s).openedPeer e.number a.id ∧
      e.number % 2 ≠ (p.ends s).ownParity ∧ (p.ends s).highestPeer < e.number ∧
      (p.ends s).objects e.number = none ∧
      OpenedAt s e.number { p.view s e.number with obj := some (Channel.new e.number a.id false) }
        { p.view s.other e.number with wire := numbered e.number rest } := by
  have hat := h.chan s e.number
  have hwire : (p.view s.other e.number).wire = e :: numbered e.number rest := by
    simp [Pair.view, hw, numbered]
  obtain ⟨howner, hnone, -, -, a, hua, hframe, hid, hopened⟩ := hat.opened.recvOpen hwire he
  have ha : (p.ends s.other).objects e.number = some a := hua
  have hobj := (h.ends s.other).obj _ a ha
  obtain ⟨hhigh, hroom, hfree⟩ := h.accepts hcl hw he ha
  have hpar : e.number % 2 ≠ (p.ends s).ownParity := by
    rw [h.side s]
    intro hp
    exact Side.other_ne s (howner.symm.trans (owner_eq_iff.mpr hp))
  have hpay : e.payload = encodeId a.id := by rw [hframe]; rfl
  have hfound : ((p.ends s).unaccepted.any fun q => q.1 = a.id) = false := by
    rw [List.any_eq_false]
    exact fun q hq => by simpa using hfree q hq
  have heq : (p.ends s).onMessage again (.binary e) = (p.ends s).openedPeer e.number a.id := by
    have hsmall := hobj.small
    have hpos := hobj.pos
    simp only [Link.onMessage, Link.onBinary]
    rw [parseEnvelope_bytes e (by simp only [maxChannelNumber] at hsmall; omega)]
    simp only [isEnvelopeType_code, he]
    unfold Link.onOpen
    rw [if_neg (by simp [hpar]; omega), if_neg (by omega), if_neg (by omega), hpay,
      parseChannelId_encodeId hid]
    simp only [hfound]
    rfl
  exact ⟨a, ha, heq, hpar, hhigh, hnone, hopened⟩

theorem PairOk.recvOpen (h : PairOk p) (hcl : (p.ends s).closed = false) {e : Envelope}
    {rest : List Message} (hw : p.wire s.other = .binary e :: rest) (he : e.type = .OPEN)
    (again : Nat) :
    PairOk (p.set s ((p.ends s).onMessage again (.binary e)) (took p s rest)) := by
  have hend := h.ends s
  have hat := h.chan s e.number
  have hwire : (p.view s.other e.number).wire = e :: numbered e.number rest := by
    simp [Pair.view, hw, numbered]
  obtain ⟨a, ha, heq, hpar, hhigh, hnone, hopened⟩ := h.onMessage_open hcl hw he again
  have hobj := (h.ends s.other).obj _ a ha
  rw [heq]
  have hne : ∀ k c, (p.ends s).objects k = some c → k ≠ e.number := by
    rintro k c hk rfl
    rw [hnone] at hk; cases hk
  have hobjs : ∀ k, k ≠ e.number →
      ((p.ends s).openedPeer e.number a.id).objects k = (p.ends s).objects k :=
    fun k hk => Function.update_of_ne hk _ _
  have hself : linkView ((p.ends s).openedPeer e.number a.id) (took p s rest s) e.number =
      { p.view s e.number with obj := some (Channel.new e.number a.id false) } := by
    simp [linkView, Pair.view, Link.openedPeer, Link.put]
  refine h.set e.number (hend.openedPeer hcl hpar hhigh hobj.small) rfl hobjs rfl
    (fun _ _ => rfl) (took_numbered hw (fun k hk => by simp [numbered, Ne.symm hk])) ⟨?_, ?_⟩ ?_ ?_
  · have hex := hat.exchange
    have hchan : (p.view s e.number).chan e.number = Channel.new e.number "" false := by
      simp [View.chan, Pair.view, hnone]
    rw [hwire, hchan] at hex
    rw [took_otherView, hself]
    refine Exchange.of_eq (a := Channel.new e.number "" false) ?_ rfl rfl
    exact ⟨hex.out.dropBack, hex.into.drop (by simp [he]) (by simp [Envelope.isFinal, he]), hex.lane,
      hex.laneOther⟩
  · rw [took_otherView, hself]
    exact hopened
  · intro hcl'
    rw [took_self]
    refine (h.order s hcl').progress ?_ (.refl _)
    intro m a' hmpar _ ha'
    have hm : m ≠ e.number := by
      rintro rfl
      exact hpar (h.side s ▸ hmpar)
    rw [hobjs m hm] at ha'
    exact ⟨a', ha', rfl⟩
  · intro _
    rw [took_other]
    have hord := h.orderOther (s := s) hcl (.refl _)
    rw [hw, List.cons_append] at hord
    refine hord.opened he ?_
    intro m b hb
    exact ⟨b, by rw [hobjs m (hne m b hb)]; exact hb, fun h => h, fun h => h⟩

theorem ChanStep.frames {c' : Channel} {calls : List HostCall} (h : ChanStep c c' calls) :
    NoOpen (frames calls) ∧ (∀ e ∈ frames calls, e.number = c'.number) ∧
      ∀ m ∈ (frames calls).map Message.binary, ¬ IsOpen m := by
  rcases h.calls with ⟨hcalls, -⟩ | ⟨pre, rfl, hcalls, -⟩
  · exact frames_noOpen hcalls
  · have : Link.frames (pre ++ [.channelDone]) = Link.frames pre := by simp [Link.frames]
    rw [this]
    exact frames_noOpen hcalls

/-- A text reaches the end. -/
theorem PairOk.recvText (h : PairOk p) (hcl : (p.ends s).closed = false) {t : String}
    {rest : List Message} (hw : p.wire s.other = .text t :: rest) (again : Nat) :
    PairOk (p.set s ((p.ends s).onMessage again (.text t)) (took p s rest)) := by
  have hend := h.ends s
  have hview : otherView p s (took p s rest) 0 = p.view s.other 0 := by
    rw [took_otherView]
    simp [Pair.view, hw, numbered]
  refine h.set 0 ?_ rfl (fun _ _ => rfl) rfl (fun _ _ => rfl)
    (took_numbered hw (fun _ _ => rfl)) ?_ ?_ ?_
  · exact hend.same ⟨rfl, rfl, rfl, rfl, rfl, rfl, rfl, rfl⟩ (fun _ hq => hq) (fun _ hk => hk)
      (fun hc' => absurd (hcl.symm.trans hc') (by decide)) hend.warnings
  · rw [hview, took_self]
    exact h.chan s 0
  · rw [took_self]
    exact h.order s
  · intro _
    have hord := h.orderOther (s := s) hcl (.refl _)
    rw [hw, List.cons_append] at hord
    rw [took_other]
    exact hord.tail (.refl _) (fun e b he => by cases he)

/-- What `#onBinary` does with a message of a conforming end that is no `OPEN`. -/
theorem onBinary_eq {l : Link} {e : Envelope} (hsmall : e.number ≤ maxChannelNumber)
    (he : e.type ≠ .OPEN) (again : Nat) :
    l.onMessage again (.binary e) =
      if e.number ∈ l.channels then
        l.on e.number (fun c => c.receive e again l.unsentBytes)
      else if l.isLate e.number then l
      else l.warn (.dropped "a channel number the peer never opened") := by
  simp only [Link.onMessage, Link.onBinary]
  rw [parseEnvelope_bytes e (by simp only [maxChannelNumber] at hsmall; omega)]
  simp only [isEnvelopeType_code]
  cases ht : e.type with
  | OPEN => exact absurd ht he
  | DATA => simp only [Link.dispatch, Channel.receive, ht]
  | END => simp only [Link.dispatch, Channel.receive, ht]
  | STOP => simp only [Link.dispatch, Channel.receive, ht]
  | CREDIT => simp only [Link.dispatch, Channel.receive, ht]
  | RESET => simp only [Link.dispatch, Channel.receive, ht]

/-- A message of a channel that is known here is never from a number the peer never opened. -/
theorem EndOk.isLate {l : Link} (h : EndOk l) (hc : l.objects n = some c) : l.isLate n = true := by
  have hobj := h.obj n c hc
  have hpos := hobj.pos
  unfold Link.isLate
  rw [if_neg (by omega)]
  split
  · next hp => simpa using hobj.own hp
  · next hp => simpa using hobj.peer hp

theorem PairOk.recvOther (h : PairOk p) (hcl : (p.ends s).closed = false) {e : Envelope}
    {rest : List Message} (hw : p.wire s.other = .binary e :: rest) (he : e.type ≠ .OPEN)
    (again : Nat) :
    PairOk (p.set s ((p.ends s).onMessage again (.binary e)) (took p s rest)) := by
  have hend := h.ends s
  have hat := h.chan s e.number
  have hwire : (p.view s.other e.number).wire = e :: numbered e.number rest := by
    simp [Pair.view, hw, numbered]
  obtain ⟨⟨c, hvc, hop⟩, hopened⟩ := hat.opened.recv hwire he
  have hc : (p.ends s).objects e.number = some c := hvc
  have hobj := hend.obj _ c hc
  have hd := hobj.done (.inl hcl)
  have hnumbered : ∀ t k, k ≠ e.number → numbered k (took p s rest t) = numbered k (p.wire t) :=
    took_numbered hw (fun k hk => by simp [numbered, Ne.symm hk])
  have hex := hat.exchange
  have hchan : (p.view s e.number).chan e.number = c := by simp [View.chan, hvc]
  rw [hwire, hchan] at hex
  have hord := h.orderOther (s := s) hcl (.refl _)
  rw [hw, List.cons_append] at hord
  rw [onBinary_eq hobj.small he again]
  split
  · next hmem =>
    obtain ⟨hex', hstep, hfinal⟩ := hex.receive hobj.ok hd he again (p.ends s).unsentBytes
    refine PairOk.event hend hcl hc hstep ?_
    intro l' hrep
    obtain ⟨hno, hnum, hquiet⟩ := hstep.frames
    have hlane : laneFrames (p.ends s) (frames (c.receive e again (p.ends s).unsentBytes).2) =
        frames (c.receive e again (p.ends s).unsentBytes).2 := by
      unfold laneFrames
      rw [if_neg (by simp [hcl])]
    refine h.replaced hrep (.refl _ _) (fun f hf => ?_) hnumbered ⟨?_, ?_⟩ ?_ ?_
    · exact ((hnum f hf).trans hstep.number).trans hobj.number
    · rw [took_otherView, took_self, hlane]
      exact hex'
    · rw [took_otherView, took_self, hlane]
      refine hopened.step hvc hstep.id ((hstep.opened hop).trans hop.symm) hno ?_
      exact fun hcl' => absurd (hcl.symm.trans hcl') (by decide)
    · intro hcl'
      rw [took_self, hlane]
      exact (h.order s hcl').pushLane hquiet (hstep.toObjStep.kept hc _) (.refl _)
    · intro _
      rw [took_other]
      refine hord.tail (hstep.toObjStep.progress hc hstep.done_mono) ?_
      intro f b hf hfin hb hours
      cases hf
      cases hc.symm.trans hb
      refine ⟨_, Function.update_self _ _ _, ?_⟩
      rw [hstep.done, hstep.ours hours, hfinal hfin]
      rfl
  · next hmem =>
    rw [if_pos (hend.isLate hc)]
    have hdone : c.done = true := by
      by_contra hne
      exact hmem ((hobj.live hcl).mpr (by simpa using hne))
    have htheirs : c.theirs = true := by
      rw [hdone, eq_comm, Bool.and_eq_true] at hd
      exact hd.2
    refine h.set e.number hend rfl (fun _ _ => rfl) rfl (fun _ _ => rfl) hnumbered ⟨?_, ?_⟩ ?_ ?_
    · rw [took_otherView, took_self]
      have := hex.late htheirs
      rw [← hchan] at this
      exact this
    · rw [took_otherView, took_self]
      exact hopened
    · rw [took_self]
      exact h.order s
    · intro _
      rw [took_other]
      refine hord.tail (.refl _) ?_
      intro f b hf _ hb _
      cases hf
      exact ⟨b, hb, by cases hc.symm.trans hb; exact hdone⟩

theorem PairOk.receive (h : PairOk p) (again : Nat) : PairOk (p.step (.receive s again)) := by
  simp only [Pair.step]
  split
  · exact h
  next hcl =>
  have hcl : (p.ends s).closed = false := by simpa using hcl
  split
  · exact h
  next m rest hw =>
  cases m with
  | text t => exact h.recvText hcl hw again
  | binary e =>
    by_cases he : e.type = .OPEN
    · exact h.recvOpen hcl hw he again
    · exact h.recvOther hcl hw he again

/-! ### Steps of one end -/

@[simp] theorem set_self : p.set s (p.ends s) p.wire = p := by simp [Pair.set]

@[simp] theorem set_set {l l' : Link} {w w' : Side → List Message} :
    (p.set s l w).set s l' w' = p.set s l' w' := by simp [Pair.set]

/-- A channel moves by itself, if it exists. -/
theorem PairOk.localOn' {op : Channel → Channel × List HostCall} (h : PairOk p)
    (hl : ∀ c, (p.ends s).objects n = some c → LocalStep c (op c).1 (op c).2) :
    PairOk (p.set s ((p.ends s).on n op) p.wire) := by
  cases hc : (p.ends s).objects n with
  | none =>
    have : (p.ends s).on n op = p.ends s := by rw [Link.on, hc]
    rw [this, set_self]
    exact h
  | some c => exact h.localOn hc (hl c hc)

theorem PairOk.openChannel (h : PairOk p) (w : Nat) :
    PairOk (p.set s ((p.ends s).openChannel w) p.wire) := by
  unfold Link.openChannel
  split
  · rw [set_self]; exact h
  next hcl =>
  have hcl : (p.ends s).closed = false := by simpa using hcl
  split
  · next hlim =>
    rw [Bool.and_eq_true, decide_eq_true_eq] at hlim
    exact h.openOwn hcl hlim.1
  · exact h.quiet ⟨rfl, rfl, rfl, rfl, rfl, rfl, rfl, rfl⟩ (fun _ hq => hq) (fun _ hk => hk) rfl
      (h.ends s).warnings

theorem PairOk.acceptChannel (h : PairOk p) (id : String) :
    PairOk (p.set s ((p.ends s).acceptChannel id) p.wire) := by
  unfold Link.acceptChannel
  split
  · rw [set_self]; exact h
  next q _ =>
  have hpre := h.quiet (s := s)
    (l := { p.ends s with unaccepted := (p.ends s).unaccepted.filter (fun r => r.1 ≠ id) })
    ⟨rfl, rfl, rfl, rfl, rfl, rfl, rfl, rfl⟩ (fun _ hr => (List.mem_filter.mp hr).1)
    (fun _ hk => hk) rfl (h.ends s).warnings
  have hmark : ∀ c : Channel, LocalStep c (c.markAccepted, ([] : List HostCall)).1
      (c.markAccepted, ([] : List HostCall)).2 := fun c => Channel.markAccepted_step
  simpa using hpre.localOn' (s := s) (n := q.2) (fun c _ => hmark c)

theorem PairOk.app (h : PairOk p) (call : AppCall) :
    PairOk (p.set s ((p.ends s).on n
      (fun c => if c.accepted then appCall (p.ends s).unsentBytes call c else (c, []))) p.wire) := by
  refine h.localOn' fun c hc => ?_
  have hobj := (h.ends s).obj n c hc
  have hrcv : RcvOk c.rcv := by
    have := (h.chan s n).exchange.into.rcv
    rwa [show (p.view s n).chan n = c by simp [Pair.view, View.chan, hc]] at this
  split
  · cases call with
    | write chunk => exact Channel.write_step chunk
    | close => exact Channel.close_step
    | abortWritable => exact Channel.abortWritable_step
    | read again => exact Channel.pull_step again hobj.ok
    | cancel => exact Channel.cancel_step hrcv
    | abort reason => exact Channel.abort_step reason (fun hf => hobj.done (.inr hf))
    | whenCredit => exact Channel.whenCredit_step _
  · exact .refl c

/-- Every channel moves by itself, at most, and says nothing. -/
def Moved (objs objs' : Objects) : Prop :=
  ∀ n, (objs n = none ∧ objs' n = none) ∨
    ∃ c c' calls, objs n = some c ∧ objs' n = some c' ∧ LocalStep c c' calls ∧ frames calls = []

theorem Moved.kept {objs objs' : Objects} (h : Moved objs objs') (parity bound : Nat) :
    Kept parity objs objs' bound := by
  intro m a' _ _ ha'
  rcases h m with ⟨-, hn⟩ | ⟨c, c', _, hc, hc', hl, -⟩
  · rw [hn] at ha'; cases ha'
  · cases hc'.symm.trans ha'
    exact ⟨c, hc, hl.id.symm⟩

theorem Moved.progress {objs objs' : Objects} (h : Moved objs objs') : Progress objs objs' := by
  intro m b hb
  rcases h m with ⟨hn, -⟩ | ⟨c, c', _, hc, hc', hl, -⟩
  · rw [hn] at hb; cases hb
  · cases hc.symm.trans hb
    exact ⟨c', hc', fun hd => hl.done.trans hd, fun ho => hl.ours.trans ho⟩

/-- The exchange of every channel goes on when the channels of one end move by themselves. -/
theorem PairOk.movedExchange (h : PairOk p) {objs' : Objects} (hm : Moved (p.ends s).objects objs')
    (n : Nat) : Exchange ((objs' n).getD (Channel.new n "" false)) ((p.view s.other n).chan n)
      (p.view s n).wire (p.view s n).lane (p.view s.other n).wire (p.view s.other n).lane := by
  have hex := (h.chan s n).exchange
  rcases hm n with ⟨hn, hn'⟩ | ⟨c, c', calls, hc, hc', hl, hfs⟩
  · rw [hn']
    rwa [show (p.view s n).chan n = _ by simp [Pair.view, View.chan, hn]; rfl] at hex
  · rw [hc']
    rw [show (p.view s n).chan n = c by simp [Pair.view, View.chan, hc]] at hex
    have := hex.local hl
    rwa [hfs, List.append_nil] at this

theorem moved_updateStall (l : Link) (u : Nat) :
    Moved l.objects (fun n => if n ∈ l.channels then (l.objects n).map (fun c => c.updateStall u)
      else l.objects n) := by
  intro n
  cases hc : l.objects n with
  | none => exact .inl ⟨rfl, by simp [hc]⟩
  | some c =>
    right
    by_cases hn : n ∈ l.channels
    · exact ⟨c, c.updateStall u, [], rfl, by simp [hn, hc], Channel.updateStall_step u, rfl⟩
    · exact ⟨c, c, [], rfl, by simp [hn, hc], .refl c, rfl⟩

/-- An end whose channels moved by themselves. -/
theorem EndOk.moved {l : Link} (h : EndOk l) {objs' : Objects} (hm : Moved l.objects objs') (u : Nat) :
    EndOk { l with unsentBytes := u, objects := objs' } := by
  have hforth : ∀ n c, l.objects n = some c → ∃ c' calls, objs' n = some c' ∧
      LocalStep c c' calls := by
    intro n c hc
    rcases hm n with ⟨hn, -⟩ | ⟨d, c', calls, hd, hc', hl, -⟩
    · rw [hn] at hc; cases hc
    · cases hd.symm.trans hc
      exact ⟨c', calls, hc', hl⟩
  refine ⟨?_, ?_, h.nodup, h.nextOwn, h.ownOpen, h.peerOpen, ?_, ?_, h.closed, h.warnings⟩
  · intro n c' hc'
    rcases hm n with ⟨-, hn⟩ | ⟨c, d, calls, hc, hd, hl, -⟩
    · cases hn.symm.trans hc'
    · cases hd.symm.trans hc'
      have hobj := h.obj n c hc
      have := hobj.step (hl.obj hobj.ok) hl.done ?_
      · exact ⟨this.ok, this.number, this.pos, this.small, this.owned, this.own, this.peer,
          this.done, this.live⟩
      · intro hcase
        rw [hl.done, hl.ours, hl.theirs]
        refine hobj.done (hcase.imp id ?_)
        intro hf
        cases hf' : c.failure.isSome with
        | false => rfl
        | true => exact (hl.failed hf').symm.trans hf
  · intro n hn
    obtain ⟨c, hc⟩ := h.known n hn
    obtain ⟨c', _, hc', -⟩ := hforth n c hc
    exact ⟨c', hc'⟩
  · intro q hq
    obtain ⟨h1, h2, c, hc, hid⟩ := h.unaccepted q hq
    obtain ⟨c', _, hc', hl⟩ := hforth _ c hc
    exact ⟨h1, h2, c', hc', hl.id.trans hid⟩
  · intro n hn
    obtain ⟨c, hc, ho⟩ := h.ring n hn
    obtain ⟨c', _, hc', hl⟩ := hforth n c hc
    exact ⟨c', hc', hl.opened.trans ho⟩

theorem PairOk.sent (h : PairOk p) (u : Nat) :
    PairOk (p.set s ((p.ends s).localStep (.sent u)) p.wire) := by
  have hm := moved_updateStall (p.ends s) u
  have hmoved := (h.ends s).moved hm u
  refine h.setAll hmoved rfl (fun n => ⟨h.movedExchange hm n, ?_⟩) ?_ ?_
  · have hop := (h.chan s n).opened
    rcases hm n with ⟨hn, hn'⟩ | ⟨c, c', calls, hc, hc', hl, -⟩
    · have : linkView ((p.ends s).localStep (.sent u)) (p.wire s) n = p.view s n := by
        simp [linkView, Pair.view, Link.localStep, hn]
      rw [this]
      exact hop
    · have := hop.step (c := c) hc hl.id hl.opened (fun _ he => absurd he (by simp)) (fun _ => rfl)
      rw [List.append_nil, ← hc'] at this
      exact this
  · intro hcl
    exact (h.order s hcl).progress (hm.kept _ _) (.refl _)
  · intro hcl
    exact h.orderOther hcl hm.progress

theorem PairOk.text (h : PairOk p) (t : String) :
    PairOk (p.set s ((p.ends s).text t) p.wire) := by
  unfold Link.text
  split
  · rw [set_self]; exact h
  next hcl =>
  have hcl : (p.ends s).closed = false := by simpa using hcl
  have hend := h.ends s
  refine h.set 0 ?_ rfl (fun _ _ => rfl) rfl (fun k _ => by simp [numbered]) (fun _ _ _ => rfl) ?_
    ?_ ?_
  · exact hend.same ⟨rfl, rfl, rfl, rfl, rfl, rfl, rfl, rfl⟩ (fun _ hq => hq) (fun _ hk => hk)
      (fun hc' => absurd (hcl.symm.trans hc') (by decide)) hend.warnings
  · have : linkView { p.ends s with priority := (p.ends s).priority ++ [.text t] } (p.wire s) 0 =
        p.view s 0 := by simp [linkView, Pair.view, numbered]
    rw [this]
    exact h.chan s 0
  · intro hcl'
    refine (h.order s hcl').pushLane ?_ (.refl _ _) (.refl _)
    rintro m hm ⟨e, rfl, -⟩
    cases List.mem_singleton.mp hm
  · intro _
    exact h.orderOther hcl (.refl _)

/-- `closeWith` leaves a channel that has failed, and says nothing. -/
theorem closeWith_spec (c : Channel) :
    SndLocal c.snd (c.closeWith ⟨.closed, none⟩).1.snd ∧
      RcvLocal c.rcv (c.closeWith ⟨.closed, none⟩).1.rcv [] ∧
      (ChanOk c → ChanOk (c.closeWith ⟨.closed, none⟩).1) ∧
      (c.closeWith ⟨.closed, none⟩).1.number = c.number ∧
      (c.closeWith ⟨.closed, none⟩).1.id = c.id ∧
      (c.closeWith ⟨.closed, none⟩).1.ownedByUs = c.ownedByUs ∧
      (c.closeWith ⟨.closed, none⟩).1.openHanded = c.openHanded ∧
      (c.closeWith ⟨.closed, none⟩).1.failure.isSome = true := by
  let c₁ : Channel := { c with resetQueued := true, done := true }
  have hok : ChanOk c → ChanOk c₁ := fun ok => ⟨ok.tail, ok.want, ok.valid, ok.items⟩
  cases hf : c.failure.isSome with
  | true =>
    have : c.closeWith ⟨.closed, none⟩ = (c₁, []) := if_pos hf
    rw [this]
    exact ⟨.refl _, .refl _, hok, rfl, rfl, rfl, rfl, hf⟩
  | false =>
    have hdone : (c₁.failed ⟨.closed, none⟩).checkDone = (c₁.failed ⟨.closed, none⟩, []) := by
      simp [Channel.checkDone, Channel.failed, Channel.failOutgoing, c₁]
    have : c.closeWith ⟨.closed, none⟩ = (c₁.failed ⟨.closed, none⟩, [.removeBulk]) := by
      have hfail : c₁.fail ⟨.closed, none⟩ none = _ := Channel.fail_quiet hf
      rwa [hdone] at hfail
    rw [this]
    exact ⟨Channel.failed_snd (c := c₁) _, Channel.failed_rcv (c := c₁) _ (by simp) rfl rfl,
      fun _ => Channel.failed_ok (by simp), rfl, rfl, rfl, rfl, rfl⟩

/-- What closing does to the object of number `n`. -/
def closing (l : Link) (n : Nat) (c : Channel) : Channel :=
  if n ∈ l.channels then (c.closeWith ⟨.closed, none⟩).1 else c

theorem onTransportClosed_objects (l : Link) (hcl : l.closed = false) :
    l.onTransportClosed.objects = fun n => (l.objects n).map (closing l n) := by
  funext n
  simp only [Link.onTransportClosed, hcl, Bool.false_eq_true, if_false]
  by_cases hn : n ∈ l.channels
  · have : closing l n = fun c => (c.closeWith ⟨.closed, none⟩).1 := by
      funext c
      rw [closing, if_pos hn]
    rw [if_pos hn, this]
  · have : closing l n = id := by
      funext c
      rw [closing, if_neg hn]; rfl
    rw [if_neg hn, this, Option.map_id_fun, id]

theorem closing_spec (l : Link) (n : Nat) (c : Channel) :
    SndLocal c.snd (closing l n c).snd ∧ RcvLocal c.rcv (closing l n c).rcv [] ∧
      (ChanOk c → ChanOk (closing l n c)) ∧ (closing l n c).number = c.number ∧
      (closing l n c).id = c.id ∧ (closing l n c).ownedByUs = c.ownedByUs ∧
      (closing l n c).openHanded = c.openHanded ∧
      ((closing l n c).failure.isSome = false → closing l n c = c) := by
  unfold closing
  split
  · obtain ⟨h1, h2, h3, h4, h5, h6, h7, h8⟩ := closeWith_spec c
    exact ⟨h1, h2, h3, h4, h5, h6, h7, fun hf => absurd (h8.symm.trans hf) (by decide)⟩
  · exact ⟨.refl _, .refl _, fun ok => ok, rfl, rfl, rfl, rfl, fun _ => rfl⟩

theorem EndOk.close {l : Link} (h : EndOk l) (hcl : l.closed = false) :
    EndOk l.onTransportClosed := by
  have hobjs := onTransportClosed_objects l hcl
  have hpar : l.onTransportClosed.ownParity = l.ownParity := by
    simp [Link.onTransportClosed, hcl, Link.ownParity]
  have hclosed : l.onTransportClosed.closed = true := by simp [Link.onTransportClosed, hcl]
  have hopen : ¬ l.onTransportClosed.closed = false := by simp [hclosed]
  refine ⟨?_, ?_, ?_, ?_, fun hc => absurd hc hopen, fun hc => absurd hc hopen, ?_, ?_, ?_, ?_⟩
  · intro n c' hc'
    rw [hobjs] at hc'
    obtain ⟨c, hc, rfl⟩ := Option.map_eq_some_iff.mp hc'
    have hobj := h.obj n c hc
    obtain ⟨-, -, h3, h4, -, h6, -, h8⟩ := closing_spec l n c
    refine ⟨h3 hobj.ok, h4.trans hobj.number, hobj.pos, hobj.small, ?_, ?_, ?_, ?_,
      fun hc => absurd hc hopen⟩
    · rw [h6, hpar]; exact hobj.owned
    · rw [hpar]; simpa [Link.onTransportClosed, hcl] using hobj.own
    · rw [hpar]; simpa [Link.onTransportClosed, hcl] using hobj.peer
    · rintro (hc | hf)
      · exact absurd hc hopen
      · rw [h8 hf]
        exact hobj.done (.inl hcl)
  · intro n hn
    simp [Link.onTransportClosed, hcl] at hn
  · simp [Link.onTransportClosed, hcl]
  · rw [hpar]
    simpa [Link.onTransportClosed, hcl] using h.nextOwn
  · intro q hq
    simp [Link.onTransportClosed, hcl] at hq
  · intro n hn
    simp [Link.onTransportClosed, hcl] at hn
  · intro _
    simp [Link.onTransportClosed, hcl]
  · intro w hw
    refine h.warnings w ?_
    simpa [Link.onTransportClosed, hcl] using hw

/-- The end closes: every live channel fails, and what waits in the lanes is lost. -/
theorem PairOk.close (h : PairOk p) : PairOk (p.set s (p.ends s).onTransportClosed p.wire) := by
  cases hcl : (p.ends s).closed with
  | true =>
    have : (p.ends s).onTransportClosed = p.ends s := by rw [Link.onTransportClosed, if_pos hcl]
    rw [this, set_self]
    exact h
  | false =>
    have hobjs := onTransportClosed_objects (p.ends s) hcl
    have hview : ∀ n, linkView (p.ends s).onTransportClosed (p.wire s) n =
        ⟨((p.view s n).obj).map (closing (p.ends s) n), (p.view s n).wire, [], true⟩ := by
      intro n
      simp only [linkView, hobjs, Pair.view]
      simp [Link.onTransportClosed, hcl, numbered]
    refine h.setAll ((h.ends s).close hcl) (by simp [Link.onTransportClosed, hcl])
      (fun n => ⟨?_, ?_⟩) ?_ ?_
    · have hex := (h.chan s n).exchange
      rw [hview]
      have htail : Exchange ((p.view s n).chan n) ((p.view s.other n).chan n) (p.view s n).wire []
          (p.view s.other n).wire (p.view s.other n).lane := by
        rw [← List.nil_append (p.view s n).lane] at hex
        exact hex.laneTail
      cases hc : (p.view s n).obj with
      | none =>
        simp only [View.chan, hc, Option.map_none] at htail ⊢
        exact htail
      | some c =>
        obtain ⟨h1, h2, -⟩ := closing_spec (p.ends s) n c
        simp only [View.chan, hc, Option.map_some, Option.getD_some] at htail ⊢
        refine ⟨htail.out.sndLocal h1, ?_, by simp, htail.laneOther⟩
        have := htail.into.rcvLocal h2
        rwa [List.append_nil] at this
    · rw [hview]
      refine (h.chan s n).opened.close ?_ ?_
      · exact fun c => (closing_spec (p.ends s) n c).2.2.2.2.1
      · exact fun c => (closing_spec (p.ends s) n c).2.2.2.2.2.2.1
    · intro hcl'
      have hord := (h.order s hcl').front (Kept.refl _ _) (.refl _)
      have hnil : (p.ends s).onTransportClosed.priority = [] := by simp [Link.onTransportClosed, hcl]
      have hnext : (p.ends s).onTransportClosed.nextOwn = (p.ends s).nextOwn := by
        simp [Link.onTransportClosed, hcl]
      rw [hnil, List.append_nil, hnext, hobjs]
      refine hord.progress ?_ (.refl _)
      intro m a' _ _ ha'
      obtain ⟨a, ha, rfl⟩ := Option.map_eq_some_iff.mp ha'
      exact ⟨a, ha, ((closing_spec (p.ends s) m a).2.2.2.2.1).symm⟩
    · intro hc
      simp [Link.onTransportClosed, hcl] at hc

/-- Any step of one end by itself. -/
theorem PairOk.act (h : PairOk p) (a : LocalAction) : PairOk (p.step (.act s a)) := by
  show PairOk (p.set s ((p.ends s).localStep a) p.wire)
  have hsame : ∀ l : Link, SameTable (p.ends s) l → l.unaccepted = (p.ends s).unaccepted →
      l.ring = (p.ends s).ring → l.priority = (p.ends s).priority →
      l.warnings = (p.ends s).warnings → PairOk (p.set s l p.wire) :=
    fun l ht hun hring hpr hw => h.quiet ht (fun q hq => hun ▸ hq) (fun k hk => hring ▸ hk) hpr
      (fun w hw' => (h.ends s).warnings w (hw ▸ hw'))
  cases a with
  | openChannel w => exact h.openChannel w
  | abortWaiter w => exact hsame _ ⟨rfl, rfl, rfl, rfl, rfl, rfl, rfl, rfl⟩ rfl rfl rfl rfl
  | acceptChannel id => exact h.acceptChannel id
  | app n call => exact h.app call
  | sink n => exact h.localOn' fun c _ => Channel.sinkNext_step _
  | resume n => exact h.localOn' fun c _ => Channel.resumeWrite_step _
  | written n => exact h.localOn' fun c _ => Channel.onItemWritten_step _
  | acceptTimeout n =>
    exact h.localOn' fun c hc =>
      Channel.acceptTimeout_step (fun hf => ((h.ends s).obj n c hc).done (.inr hf))
  | stallTimeout n =>
    exact h.localOn' fun c hc =>
      Channel.stallTimeout_step (fun hf => ((h.ends s).obj n c hc).done (.inr hf))
  | sent u => exact h.sent u
  | sendText t => exact h.text t
  | generate ids => exact hsame _ ⟨rfl, rfl, rfl, rfl, rfl, rfl, rfl, rfl⟩ rfl rfl rfl rfl
  | close => exact h.close

/-- One step of a connection. -/
theorem PairOk.step (h : PairOk p) (a : Pair.Action) : PairOk (p.step a) := by
  cases a with
  | act s a => exact h.act a
  | pump s => exact h.pump
  | receive s again => exact h.receive again

end

/-! ### Runs -/

theorem create_ok (worker : Bool) : EndOk (Link.create worker) := by
  refine ⟨by simp [Link.create], by simp [Link.create], by simp [Link.create], ?_,
    by simp [Link.create], by simp [Link.create], by simp [Link.create], by simp [Link.create],
    by simp [Link.create], by simp [Link.create]⟩
  cases worker <;> simp [Link.create, Link.ownParity]

theorem Exchange.fresh (n : Nat) :
    Exchange (Channel.new n "" false) (Channel.new n "" false) [] [] [] [] := by
  have hs : SndOk (Channel.new n "" false).snd := by
    refine ⟨?_, ?_, ?_, ?_, ?_, ?_, ?_, ?_, ?_, ?_⟩ <;> simp [Channel.snd, Channel.new]
  have hr : RcvOk (Channel.new n "" false).rcv := by
    refine ⟨?_, ?_, ?_, ?_, ?_, ?_⟩ <;> simp [Channel.rcv, Channel.new]
  have hhalf : Half (Channel.new n "" false).snd (Channel.new n "" false).rcv [] [] := by
    refine ⟨hs, hr, by simp, by simp, ?_, ?_, by simp, ?_, by simp, ?_, ?_, ?_, ?_, ?_, ?_, ?_⟩
    · simp [Channel.snd, Channel.rcv, Channel.new, dataBytes]
    · simp [Channel.snd, Channel.rcv, Channel.new, credits]
    · simp [Channel.snd, Channel.rcv, Channel.new]
    · simp [stops]
    · simp [Channel.snd, Channel.new]
    · simp [Channel.snd, Channel.new, Snd.ours]
    · simp [Channel.rcv, Channel.new]
    · refine fun _ => ⟨[], ?_, ?_⟩
      · simp [Channel.snd, Channel.rcv, Channel.new, dataBytes, queueBytes]
      · exact fun _ _ => ⟨[], by simp [Channel.snd, Channel.new], fun _ => rfl⟩
    · simp [Channel.snd, Channel.rcv, Channel.new]
    · simp [Channel.rcv, Channel.new]
  exact ⟨hhalf, hhalf, by simp, by simp⟩

theorem PairOk.create : PairOk Pair.create := by
  refine ⟨fun s => create_ok _, ?_, fun n => ⟨Exchange.fresh n, ?_⟩, fun s _ => ?_⟩
  · intro s
    cases s <;> rfl
  · have : Opened n ⟨none, [], [], false⟩ ⟨none, [], [], false⟩ := .unused rfl rfl rfl rfl rfl rfl
    unfold OpenedAt
    split <;> exact this
  · refine ⟨?_, by simp [Pair.create, Link.create], by simp [Pair.create, Link.create],
      by simp [Pair.create, Link.create]⟩
    cases s <;> simp [Pair.create, Link.create, Side.other]

/-- Every state of every run of a connection is sound. -/
theorem PairOk.run (acts : List Pair.Action) : PairOk (Lib.run Pair.step Pair.create acts) :=
  Lib.run_invariant (I := PairOk) (fun _ a h => h.step a) acts Pair.create .create

end Simlock.Link
