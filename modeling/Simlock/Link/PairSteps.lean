import Simlock.Link.PairInv

/-! The invariant of a connection through each of its steps.

    Every step changes one end, at most the two wires, and the objects and messages of one channel
    number (`PairOk.set`). When the channel comes to its end the link forgets it and may open
    channels for its waiters, so the steps through `on` are followed by any number of openings
    (`PairOk.event`). -/

namespace Simlock.Link

/-- The connection with end `s` and the wires replaced. -/
def Pair.set (p : Pair) (s : Side) (l : Link) (w : Side → List Message) : Pair :=
  ⟨Function.update p.ends s l, w⟩

section
variable {p : Pair} {s : Side} {l : Link} {w : Side → List Message} {n : Nat}

@[simp] theorem set_ends_self : (p.set s l w).ends s = l := Function.update_self _ _ _

@[simp] theorem set_ends_other : (p.set s l w).ends s.other = p.ends s.other :=
  Function.update_of_ne (Side.other_ne s) _ _

@[simp] theorem set_wire : (p.set s l w).wire = w := rfl

/-- The view of the other end, whose wire alone may have changed. -/
def otherView (p : Pair) (s : Side) (w : Side → List Message) (n : Nat) : View :=
  ⟨(p.ends s.other).objects n, numbered n (w s.other), numbered n (p.ends s.other).priority,
    (p.ends s.other).closed⟩

def linkView (l : Link) (w : List Message) (n : Nat) : View :=
  ⟨l.objects n, numbered n w, numbered n l.priority, l.closed⟩

theorem set_view_self : (p.set s l w).view s n = linkView l (w s) n := by
  simp [Pair.view, linkView]

theorem set_view_other : (p.set s l w).view s.other n = otherView p s w n := by
  simp [Pair.view, otherView]

theorem PairOk.of_sides {p : Pair} (s : Side) (h1 : EndOk (p.ends s)) (h2 : EndOk (p.ends s.other))
    (h3 : (p.ends s).ownParity = s.parity) (h4 : (p.ends s.other).ownParity = s.other.parity)
    (h5 : ∀ n, ChanAt s n (p.view s n) (p.view s.other n))
    (h6 : (p.ends s.other).closed = false →
      Order s.parity (p.ends s).nextOwn (p.ends s).objects (p.ends s.other).objects
        (p.ends s.other).highestPeer (p.wire s ++ (p.ends s).priority))
    (h7 : (p.ends s).closed = false →
      Order s.other.parity (p.ends s.other).nextOwn (p.ends s.other).objects (p.ends s).objects
        (p.ends s).highestPeer (p.wire s.other ++ (p.ends s.other).priority)) : PairOk p := by
  cases s with
  | worker =>
    refine ⟨?_, ?_, h5, ?_⟩
    · intro t; cases t <;> assumption
    · intro t; cases t <;> assumption
    · intro t; cases t <;> assumption
  | gateway =>
    refine ⟨?_, ?_, fun n => (h5 n).swap, ?_⟩
    · intro t; cases t <;> assumption
    · intro t; cases t <;> assumption
    · intro t; cases t <;> assumption

/-- End `s` and the wires change. -/
theorem PairOk.setAll (h : PairOk p) (hend : EndOk l) (hworker : l.worker = (p.ends s).worker)
    (hchan : ∀ n, ChanAt s n (linkView l (w s) n) (otherView p s w n))
    (hos : (p.ends s.other).closed = false →
      Order s.parity l.nextOwn l.objects (p.ends s.other).objects (p.ends s.other).highestPeer
        (w s ++ l.priority))
    (hor : l.closed = false →
      Order s.other.parity (p.ends s.other).nextOwn (p.ends s.other).objects l.objects
        l.highestPeer (w s.other ++ (p.ends s.other).priority)) : PairOk (p.set s l w) := by
  refine .of_sides s ?_ ?_ ?_ ?_ ?_ ?_ ?_
  · simpa using hend
  · simpa using h.ends s.other
  · have := h.side s
    simp only [set_ends_self, Link.ownParity, hworker] at this ⊢
    exact this
  · simpa using h.side s.other
  · intro n
    rw [set_view_self, set_view_other]
    exact hchan n
  · simpa using hos
  · simpa using hor

/-- End `s` and the wires change, for one channel number. -/
theorem PairOk.set (h : PairOk p) (n : Nat) (hend : EndOk l)
    (hworker : l.worker = (p.ends s).worker)
    (hobj : ∀ k, k ≠ n → l.objects k = (p.ends s).objects k)
    (hcl : l.closed = (p.ends s).closed)
    (hlane : ∀ k, k ≠ n → numbered k l.priority = numbered k (p.ends s).priority)
    (hwire : ∀ t k, k ≠ n → numbered k (w t) = numbered k (p.wire t))
    (hchan : ChanAt s n (linkView l (w s) n) (otherView p s w n))
    (hos : (p.ends s.other).closed = false →
      Order s.parity l.nextOwn l.objects (p.ends s.other).objects (p.ends s.other).highestPeer
        (w s ++ l.priority))
    (hor : l.closed = false →
      Order s.other.parity (p.ends s.other).nextOwn (p.ends s.other).objects l.objects
        l.highestPeer (w s.other ++ (p.ends s.other).priority)) : PairOk (p.set s l w) := by
  refine h.setAll hend hworker ?_ hos hor
  intro k
  by_cases hk : k = n
  · rw [hk]; exact hchan
  · have h1 : linkView l (w s) k = p.view s k := by
      simp [linkView, Pair.view, hobj k hk, hlane k hk, hwire s k hk, hcl]
    have h2 : otherView p s w k = p.view s.other k := by
      simp [otherView, Pair.view, hwire s.other k hk]
    rw [h1, h2]; exact h.chan s k

end

/-- End `s` changes nothing of its channels or their messages. -/
theorem PairOk.quiet {p : Pair} {s : Side} {l : Link} (h : PairOk p) (t : SameTable (p.ends s) l)
    (hun : ∀ q ∈ l.unaccepted, q ∈ (p.ends s).unaccepted)
    (hring : ∀ k ∈ l.ring, k ∈ (p.ends s).ring) (hpr : l.priority = (p.ends s).priority)
    (hwarn : ∀ w ∈ l.warnings, w = .noNumbersLeft) : PairOk (p.set s l p.wire) := by
  have hend := h.ends s
  have hend' : EndOk l := hend.same t hun hring
    (fun hc => by rw [hpr]; exact (hend.closed (t.closed ▸ hc)).2) hwarn
  have hview : ∀ n, linkView l (p.wire s) n = p.view s n := fun n => by
    simp [linkView, Pair.view, t.objects, t.closed, hpr]
  refine h.set 0 hend' t.worker (fun _ _ => by rw [t.objects]) t.closed (fun _ _ => by rw [hpr])
    (fun _ _ _ => rfl) ?_ ?_ ?_
  · rw [hview]; exact h.chan s 0
  · rw [t.nextOwn, t.objects, hpr]; exact h.order s
  · intro hc
    rw [t.objects, t.highestPeer]
    have := h.order s.other (by rw [Side.other_other]; exact t.closed ▸ hc)
    rw [Side.other_other] at this
    exact this

/-! ### Opening -/

theorem Half.backTail {S : Snd} {R : Rcv} {W x y : List Envelope} (h : Half S R W (x ++ y)) :
    Half S R W x := by
  have hcred := h.credit
  have hstop := h.stop
  rw [credits_append] at hcred
  rw [stops_append] at hstop
  refine ⟨h.snd, h.rcv, h.sent, fun e he => h.backOk e (List.mem_append_left _ he), h.received,
    by omega, h.endLast, h.endSent, h.ended, by omega, ?_, h.final, h.resetSent, h.bytes, h.given,
    h.closed⟩
  intro hs
  obtain ⟨h1, h2⟩ := h.stopped hs
  rw [stops_append] at h2
  exact ⟨h1, by omega⟩

/-- Messages that wait in the lane are lost. -/
theorem Exchange.laneTail {a b : Channel} {wa la lx wb lb : List Envelope}
    (h : Exchange a b wa (la ++ lx) wb lb) : Exchange a b wa la wb lb := by
  refine ⟨h.out, ?_, fun e he => h.lane e (List.mem_append_left _ he), h.laneOther⟩
  have := h.into
  rw [← List.append_assoc] at this
  exact this.backTail

/-- An `OPEN` joins the lane. -/
theorem Exchange.pushOpen {a b : Channel} {wa la wb lb : List Envelope} {e : Envelope}
    (h : Exchange a b wa la wb lb) (he : e.type = .OPEN) : Exchange a b wa (la ++ [e]) wb lb := by
  have hcred : credits [e] = 0 := by simp [credits, he]
  have hstop : stops [e] = 0 := by simp [stops, he]
  have hok : e.Ok := by simp [Envelope.Ok, he]
  refine ⟨h.out, ?_, ?_, h.laneOther⟩
  · rw [← List.append_assoc]
    refine h.into.rcvLocal ⟨fun ok => ok, rfl, rfl, rfl, fun _ => by rw [hcred]; rfl,
      fun _ => by simpa using hok, .inl ⟨rfl, hstop⟩, fun hr => ⟨hr, rfl⟩, .inl rfl,
      fun hc => .inl ⟨hc, rfl⟩⟩
  · exact List.forall_mem_append.mpr ⟨h.lane, by simp [Envelope.isBulk, he]⟩

theorem Order.progress {parity nextOwn highest : Nat} {own own' peer peer' : Objects}
    {ms : List Message} (h : Order parity nextOwn own peer highest ms) (hk : Kept parity own own' nextOwn)
    (hp : Progress peer peer') : Order parity nextOwn own' peer' highest ms := by
  have := Order.insert (x := ms) (z := []) (y := []) (by simpa using h) (by simp) hk hp
  simpa using this

/-- Of a channel that has ended at this end, the other end has ended too, or will with what is on
    the wire. -/
theorem PairOk.gone {p : Pair} (h : PairOk p) {s : Side} {m : Nat} {a : Channel}
    (ha : (p.ends s).objects m = some a) (hdone : a.done = true) (hcl : (p.ends s).closed = false)
    (hcl' : (p.ends s.other).closed = false) (rest : List Message) :
    Gone (p.ends s.other).objects m (p.wire s ++ rest) := by
  have hobj := (h.ends s).obj m a ha
  have hex := (h.chan s m).exchange
  have hchan : (p.view s m).chan m = a := by simp [Pair.view, View.chan, ha]
  rw [hchan] at hex
  have hot := hobj.done (.inl hcl)
  rw [hdone, eq_comm, Bool.and_eq_true] at hot
  -- what ended the channel here was handed over there
  have hours : ((p.view s.other m).chan m).ours = true := by
    rcases Bool.or_eq_true_iff.mp hot.2 with ht | ht
    · have := hex.into.resetSent (.inr ht)
      simp [Channel.ours, show ((p.view s.other m).chan m).resetHanded = true from this]
    · have := hex.into.endSent (.inr ht)
      simp [Channel.ours, show ((p.view s.other m).chan m).endHanded = true from this]
  cases hb : (p.ends s.other).objects m with
  | none => simp [Pair.view, View.chan, hb, Channel.ours, Channel.new] at hours
  | some b =>
    have hchan' : (p.view s.other m).chan m = b := by simp [Pair.view, View.chan, hb]
    rw [hchan'] at hours hex
    refine ⟨b, hb, ?_⟩
    rcases hex.out.final hot.1 with ⟨e, he, hf⟩ | ht
    · obtain ⟨hmem, hn⟩ := mem_of_numbered he
      exact .inr ⟨hours, e, List.mem_append_left _ hmem, hn, hf⟩
    · left
      rw [((h.ends s.other).obj m b hb).done (.inl hcl'), hours,
        show b.theirs = true from ht]
      rfl

theorem PairOk.openOwn {p : Pair} (h : PairOk p) {s : Side} (hcl : (p.ends s).closed = false)
    (hlim : (p.ends s).ownOpen < openLimit) :
    PairOk (p.set s (p.ends s).openOwn.1 p.wire) := by
  have hend := h.ends s
  rcases openOwn_spec hcl with ⟨ws, ids, heq, hws⟩ | ⟨id, rest, hmax, hvalid, hlive, heq⟩
  · rw [heq]
    exact h.quiet ⟨rfl, rfl, rfl, rfl, rfl, rfl, rfl, rfl⟩ (fun _ hq => hq) (fun _ hk => hk) rfl
      (hws hend.warnings)
  · rw [heq]
    generalize hl : p.ends s = l at *
    generalize hn : l.nextOwn = n at *
    have hpar : l.ownParity = s.parity := hl ▸ h.side s
    have hown : owner n = s := owner_eq_iff.mpr (by rw [← hpar, ← hn]; exact hend.nextOwn.1)
    have hfresh : l.objects n = none := hn ▸ hend.fresh
    have hat := h.chan s n
    have hop := hat.opened
    rw [OpenedAt, if_pos hown] at hop
    have hvobj : (p.view s n).obj = none := by simp [Pair.view, hl, hfresh]
    cases hop with
    | queued a la ho => rw [hvobj] at ho; cases ho
    | lost a ho => rw [hvobj] at ho; cases ho
    | sent a wa ho => rw [hvobj] at ho; cases ho
    | both a b ho => rw [hvobj] at ho; cases ho
    | unused ho hq hw hlane hqw hql =>
      have hne : ∀ k c, l.objects k = some c → k ≠ n := by
        rintro k c hk rfl
        rw [hfresh] at hk; cases hk
      have hprio : (l.openedOwn id rest).priority =
          l.priority ++ [.binary ⟨.OPEN, n, encodeId id⟩] := by rw [Link.openedOwn, hn]
      have hobjs : (l.openedOwn id rest).objects =
          Function.update l.objects n (some (Channel.new n id true)) := by rw [Link.openedOwn, hn]
      refine h.set n (hend.openedOwn hcl (by rw [hn]; exact hmax) id rest) (by rw [hl]; rfl) ?_
        (by rw [hl]; rfl) ?_ (fun _ _ _ => rfl) ⟨?_, ?_⟩ ?_ ?_
      · intro k hk
        rw [hobjs, Function.update_of_ne hk, hl]
      · intro k hk
        rw [hprio, hl]
        simp [numbered, Ne.symm hk]
      · have hex := hat.exchange.pushOpen (e := ⟨.OPEN, n, encodeId id⟩) rfl
        have hlane' : (linkView (l.openedOwn id rest) (p.wire s) n).lane =
            (p.view s n).lane ++ [⟨.OPEN, n, encodeId id⟩] := by
          simp [linkView, Pair.view, hprio, hl, numbered]
        rw [hlane']
        refine hex.of_eq ?_ ?_
        · simp only [linkView, View.chan, hobjs, Function.update_self, Option.getD_some, hvobj,
            Option.getD_none]
          rfl
        · simp only [linkView, View.chan, hobjs, Function.update_self, Option.getD_some, hvobj,
            Option.getD_none]
          rfl
      · rw [OpenedAt, if_pos hown]
        refine .queued (Channel.new n id true) [] ?_ hq hvalid rfl ?_ ?_ (fun _ he => by cases he)
          hqw hql
        · simp [linkView, hobjs]
        · exact hw
        · have hlane' : numbered n l.priority = [] := by simpa [Pair.view, hl] using hlane
          simp only [linkView, hprio, numbered_append, hlane', List.nil_append]
          simp [numbered, openFrame, Channel.new]
      · intro hcl'
        have hord := h.order s hcl'
        rw [hl, hn] at hord
        rw [hobjs, hprio, ← List.append_assoc]
        refine hord.snoc rfl (owner_eq_iff.mp hown) (show n < l.nextOwn + 2 by omega) ?_ ?_
        · intro m a' _ hm ha'
          rw [Function.update_of_ne (by omega)] at ha'
          exact ⟨a', ha', rfl⟩
        · -- the channels that live here now are the ones that may still live there
          refine ⟨l.channels.filter (fun m => m % 2 = l.ownParity), ?_, ?_, ?_⟩
          · have := hend.ownOpen hcl
            rw [List.countP_eq_length_filter] at this
            omega
          · intro m hm _ hmn a c ha hc
            have hm' := (List.mem_filter.mp hm).1
            dsimp only at hc hmn
            rw [Function.update_self, Option.some.injEq] at hc
            rw [Function.update_of_ne (by omega)] at ha
            subst hc
            intro heqid
            refine hlive ?_
            exact List.mem_filterMap.mpr ⟨m, hm', by rw [ha]; exact congrArg some heqid⟩
          · intro m a hmpar hmn ha hnot
            dsimp only at hmn
            rw [Function.update_of_ne (by omega)] at ha
            have hdone : a.done = true := by
              by_contra hne
              have hmem := ((hend.obj m a ha).live hcl).mpr (by simpa using hne)
              exact hnot (List.mem_filter.mpr ⟨hmem, by simpa [hpar] using hmpar⟩)
            exact h.gone (by rw [hl]; exact ha) hdone (by rw [hl]; exact hcl) hcl' _
      · intro _
        have hord := h.order s.other (by simpa [hl] using hcl)
        rw [Side.other_other, hl] at hord
        refine hord.progress (.refl _ _) ?_
        intro m b hb
        rw [hobjs, Function.update_of_ne (hne m b hb)]
        exact ⟨b, hb, fun h => h, fun h => h⟩

theorem PairOk.drain {p : Pair} {s : Side} (ws : List Nat) (l : Link)
    (h : PairOk (p.set s l p.wire)) : PairOk (p.set s (drainWaiters ws l) p.wire) := by
  refine drainWaiters_induct (P := fun l => PairOk (p.set s l p.wire)) ?_ ?_ ws l h
  · intro l ws hl
    have hend : EndOk l := by simpa using hl.ends s
    have := PairOk.quiet (s := s) (l := { l with waiters := ws }) hl
      (by rw [set_ends_self]; exact ⟨rfl, rfl, rfl, rfl, rfl, rfl, rfl, rfl⟩)
      (by rw [set_ends_self]; exact fun _ hq => hq) (by rw [set_ends_self]; exact fun _ hk => hk)
      (by rw [set_ends_self]) hend.warnings
    simpa [Pair.set] using this
  · intro l hl hcl hlim
    have := PairOk.openOwn hl (s := s) (by simpa using hcl) (by simpa using hlim)
    simpa [Pair.set] using this

/-! ### A step of one channel -/

/-- `l₀` is end `l`, up to its ring and the object and messages of channel `n`. -/
structure Base (l l₀ : Link) (n : Nat) : Prop where
  worker : l₀.worker = l.worker
  nextOwn : l₀.nextOwn = l.nextOwn
  highestPeer : l₀.highestPeer = l.highestPeer
  closed : l₀.closed = l.closed
  objects : ∀ k, k ≠ n → l₀.objects k = l.objects k
  lane : ∀ k, k ≠ n → numbered k l₀.priority = numbered k l.priority

theorem Base.refl (l : Link) (n : Nat) : Base l l n :=
  ⟨rfl, rfl, rfl, rfl, fun _ _ => rfl, fun _ _ => rfl⟩

/-- The messages of a step that reach the priority lane. -/
def laneFrames (l : Link) (fs : List Envelope) : List Envelope := if l.closed then [] else fs

section
variable {p : Pair} {s : Side} {l₀ l' : Link} {w : Side → List Message} {n : Nat} {c c' : Channel}
  {fs : List Envelope}

theorem laneFrames_map (l : Link) (fs : List Envelope) :
    (if l.closed then [] else fs.map Message.binary) = (laneFrames l fs).map .binary := by
  unfold laneFrames
  split <;> rfl

/-- The end `l'` that comes of replacing channel `n` by `c'` in `l₀`, with `fs` in its lane. -/
structure Replaced (l₀ l' : Link) (n : Nat) (c' : Channel) (fs : List Envelope) : Prop where
  end_ok : EndOk l'
  worker : l'.worker = l₀.worker
  nextOwn : l'.nextOwn = l₀.nextOwn
  highestPeer : l'.highestPeer = l₀.highestPeer
  closed : l'.closed = l₀.closed
  objects : l'.objects = Function.update l₀.objects n (some c')
  priority : l'.priority = l₀.priority ++ (laneFrames l₀ fs).map .binary

theorem PairOk.replaced (h : PairOk p) (hr : Replaced l₀ l' n c' fs) (hb : Base (p.ends s) l₀ n)
    (hnum : ∀ e ∈ fs, e.number = n)
    (hwire : ∀ t k, k ≠ n → numbered k (w t) = numbered k (p.wire t))
    (hchan : ChanAt s n ⟨some c', numbered n (w s), numbered n l₀.priority ++ laneFrames l₀ fs,
      l₀.closed⟩ (otherView p s w n))
    (hos : (p.ends s.other).closed = false →
      Order s.parity (p.ends s).nextOwn (Function.update (p.ends s).objects n (some c'))
        (p.ends s.other).objects (p.ends s.other).highestPeer
        (w s ++ (l₀.priority ++ (laneFrames l₀ fs).map .binary)))
    (hor : (p.ends s).closed = false →
      Order s.other.parity (p.ends s.other).nextOwn (p.ends s.other).objects
        (Function.update (p.ends s).objects n (some c')) (p.ends s).highestPeer
        (w s.other ++ (p.ends s.other).priority)) : PairOk (p.set s l' w) := by
  have hnum' : ∀ e ∈ laneFrames l₀ fs, e.number = n := by
    unfold laneFrames
    split
    · simp
    · exact hnum
  have hobjs : l'.objects = Function.update (p.ends s).objects n (some c') := by
    rw [hr.objects]
    funext k
    by_cases hk : k = n
    · subst hk; simp
    · rw [Function.update_of_ne hk, Function.update_of_ne hk, hb.objects k hk]
  refine h.set n hr.end_ok (hr.worker.trans hb.worker) ?_ (hr.closed.trans hb.closed) ?_ hwire ?_ ?_
    ?_
  · intro k hk
    rw [hobjs, Function.update_of_ne hk]
  · intro k hk
    rw [hr.priority, numbered_append, hb.lane k hk, numbered_map hnum', if_neg (Ne.symm hk),
      List.append_nil]
  · have : linkView l' (w s) n = ⟨some c', numbered n (w s),
        numbered n l₀.priority ++ laneFrames l₀ fs, l₀.closed⟩ := by
      simp only [linkView, hobjs, Function.update_self, hr.closed, hr.priority, numbered_append,
        numbered_map hnum', if_true]
    rw [this]; exact hchan
  · intro hcl
    rw [hobjs, hr.priority, hr.nextOwn, hb.nextOwn]
    exact hos hcl
  · intro hcl
    rw [hobjs, hr.highestPeer, hb.highestPeer]
    exact hor (by rw [← hb.closed, ← hr.closed]; exact hcl)

theorem ObjStep.kept {parity : Nat} (hstep : ObjStep c c') {own : Objects} (hc : own n = some c)
    (bound : Nat) : Kept parity own (Function.update own n (some c')) bound := by
  intro m a' _ _ ha'
  by_cases hm : m = n
  · subst hm
    rw [Function.update_self, Option.some.injEq] at ha'
    exact ⟨c, hc, by rw [← ha', hstep.id]⟩
  · rw [Function.update_of_ne hm] at ha'
    exact ⟨a', ha', rfl⟩

theorem ObjStep.progress (hstep : ObjStep c c') {peer : Objects} (hc : peer n = some c)
    (hd : c.done = true → c'.done = true) :
    Progress peer (Function.update peer n (some c')) := by
  intro m b hb
  by_cases hm : m = n
  · subst hm
    rw [hc, Option.some.injEq] at hb
    subst hb
    exact ⟨c', Function.update_self _ _ _, hd, hstep.ours⟩
  · exact ⟨b, by rw [Function.update_of_ne hm]; exact hb, fun h => h, fun h => h⟩

/-- The ends that `on` may lead to before it opens channels for waiters. -/
theorem PairOk.event {op : Channel → Channel × List HostCall} (hend : EndOk l₀) (hcl : l₀.closed = false)
    (hc : l₀.objects n = some c) (hstep : ChanStep c (op c).1 (op c).2)
    (hset : ∀ l', Replaced l₀ l' n (op c).1 (frames (op c).2) → PairOk (p.set s l' w)) :
    PairOk (p.set s (l₀.on n op) w) := by
  obtain ⟨ring, inRing, hring, ⟨hd, heq⟩ | ⟨hd, hd', heq⟩⟩ := on_spec hc hstep
  · rw [heq]
    refine hset _ ⟨hend.touch hc hstep.toObjStep hd (fun _ => hstep.done) hring, rfl, rfl, rfl, rfl,
      rfl, ?_⟩
    rw [← laneFrames_map]; rfl
  · rw [heq]
    obtain ⟨hforget, hmem⟩ : EndOk ((l₀.touch n (op c).1 (frames (op c).2) ring inRing).forget n) ∧
        n ∈ l₀.channels := hend.forget hc hstep hd hd' hring hcl
    have hset' := hset _ (show Replaced l₀
      ((l₀.touch n (op c).1 (frames (op c).2) ring inRing).forget n) n (op c).1
        (frames (op c).2) from by
      refine ⟨hforget, ?_, ?_, ?_, ?_, ?_, ?_⟩
      all_goals
        unfold Link.forget
        rw [touch_objects_self]
        dsimp only
        first
          | (split <;> rfl)
          | (split <;> (rw [← laneFrames_map]; rfl)))
    unfold channelDone
    rw [if_pos (show n ∈ (l₀.touch n (op c).1 (frames (op c).2) ring inRing).channels from hmem)]
    have := PairOk.drain (p := ⟨p.ends, w⟩) (s := s)
      ((l₀.touch n (op c).1 (frames (op c).2) ring inRing).forget n).waiters _ hset'
    exact this

theorem frames_noOpen {c : Channel} {calls : List HostCall} (h : ∀ x ∈ calls, CallOk c x) :
    NoOpen (frames calls) ∧ (∀ e ∈ frames calls, e.number = c.number) ∧
      ∀ m ∈ (frames calls).map Message.binary, ¬ IsOpen m := by
  refine ⟨fun e he => (frames_bulk h e he).2.2, fun e he => (frames_bulk h e he).2.1, ?_⟩
  rintro m hm ⟨e, rfl, ho⟩
  obtain ⟨f, hf, hfe⟩ := List.mem_map.mp hm
  cases hfe
  exact (frames_bulk h e hf).2.2 ho

theorem laneFrames_sub {l : Link} {e : Envelope} (h : e ∈ laneFrames l fs) : e ∈ fs := by
  unfold laneFrames at h
  split at h
  · cases h
  · exact h

/-- Messages other than `OPEN` join the lane. -/
theorem Order.pushLane {parity nextOwn highest : Nat} {own own' peer peer' : Objects}
    {ms ks zs : List Message} (h : Order parity nextOwn own peer highest (ms ++ ks))
    (hz : ∀ m ∈ zs, ¬ IsOpen m) (hk : Kept parity own own' nextOwn) (hp : Progress peer peer') :
    Order parity nextOwn own' peer' highest (ms ++ (ks ++ zs)) := by
  have := Order.insert (x := ms ++ ks) (z := zs) (y := []) (by simpa using h) hz hk hp
  simpa using this

/-- A channel of end `s` moves by itself; the end may be closed. -/
theorem PairOk.localOn {op : Channel → Channel × List HostCall} (h : PairOk p)
    (hc : (p.ends s).objects n = some c) (hl : LocalStep c (op c).1 (op c).2) :
    PairOk (p.set s ((p.ends s).on n op) p.wire) := by
  have hend := h.ends s
  have hobj := hend.obj n c hc
  have hstep := hl.obj hobj.ok
  obtain ⟨hno, hnum, hopen⟩ := frames_noOpen hl.calls
  obtain ⟨ring, inRing, heq, hring⟩ := foldl_perform n (op c).2 ((p.ends s).put n (op c).1)
    (fun x hx => (hl.calls x hx).of_eq hl.number (fun ho => hl.opened.trans ho))
  have hon : (p.ends s).on n op = (p.ends s).touch n (op c).1 (frames (op c).2) ring inRing := by
    unfold Link.on
    rw [hc]
    exact heq
  have hdone : (p.ends s).closed = false ∨ (op c).1.failure.isSome = false →
      (op c).1.done = ((op c).1.ours && (op c).1.theirs) := by
    intro hcase
    rw [hl.done, hl.ours, hl.theirs]
    refine hobj.done (hcase.imp id ?_)
    intro hf
    cases hf' : c.failure.isSome with
    | false => rfl
    | true => exact (hl.failed hf').symm.trans hf
  have hrep : Replaced (p.ends s) ((p.ends s).on n op) n (op c).1 (frames (op c).2) := by
    rw [hon]
    refine ⟨hend.touch hc hstep hl.done hdone hring, rfl, rfl, rfl, rfl, rfl, ?_⟩
    rw [← laneFrames_map]; rfl
  have hat := h.chan s n
  have hchan : (p.view s n).chan n = c := by simp [Pair.view, View.chan, hc]
  refine h.replaced hrep (.refl _ _) (fun e he => (hnum e he).trans hobj.number)
    (fun _ _ _ => rfl) ⟨?_, ?_⟩ ?_ ?_
  · have hex := hat.exchange
    rw [hchan] at hex
    have hex' := hex.local hl
    unfold laneFrames
    split
    · have := hex'.laneTail
      rw [← List.append_nil (p.view s n).lane] at this
      exact this
    · exact hex'
  · have hv : (p.view s n).obj = some c := hc
    refine hat.opened.step hv hl.id hl.opened (fun e he => hno e (laneFrames_sub he)) ?_
    intro hcl
    unfold laneFrames
    rw [if_pos (show (p.ends s).closed = true from hcl)]
  · intro hcl
    refine (h.order s hcl).pushLane ?_ (hstep.kept hc _) (.refl _)
    intro m hm
    obtain ⟨e, he, rfl⟩ := List.mem_map.mp hm
    exact hopen _ (List.mem_map_of_mem (laneFrames_sub he))
  · intro hcl
    have := h.order s.other (by rw [Side.other_other]; exact hcl)
    rw [Side.other_other] at this
    exact this.progress (.refl _ _) (hstep.progress hc (fun hd => hl.done.trans hd))

/-! ### Handing over -/

theorem Order.moveHead {parity nextOwn highest : Nat} {own own' peer peer' : Objects}
    {ms ks : List Message} {m : Message}
    (h : Order parity nextOwn own peer highest (ms ++ m :: ks)) (hk : Kept parity own own' nextOwn)
    (hp : Progress peer peer') : Order parity nextOwn own' peer' highest (ms ++ [m] ++ ks) := by
  have := h.progress hk hp
  simpa using this

/-- The wires after end `s` wrote `m`. -/
def wrote (p : Pair) (s : Side) (m : Message) : Side → List Message :=
  Function.update p.wire s (p.wire s ++ [m])

@[simp] theorem wrote_self {m : Message} : wrote p s m s = p.wire s ++ [m] :=
  Function.update_self _ _ _

@[simp] theorem wrote_other {m : Message} : wrote p s m s.other = p.wire s.other :=
  Function.update_of_ne (Side.other_ne s) _ _

theorem wrote_numbered {e : Envelope} (he : e.number = n) :
    ∀ t k, k ≠ n → numbered k (wrote p s (.binary e) t) = numbered k (p.wire t) := by
  intro t k hk
  rcases Side.eq_or s t with rfl | rfl
  · rw [wrote_self, numbered_append]
    simp [numbered, he, Ne.symm hk]
  · rw [wrote_other]

theorem wrote_otherView {m : Message} : otherView p s (wrote p s m) n = p.view s.other n := by
  simp [otherView, Pair.view]

theorem PairOk.orderOther (h : PairOk p) (hcl : (p.ends s).closed = false) {peer' : Objects}
    (hp : Progress (p.ends s).objects peer') :
    Order s.other.parity (p.ends s.other).nextOwn (p.ends s.other).objects peer'
      (p.ends s).highestPeer (p.wire s.other ++ (p.ends s.other).priority) := by
  have := h.order s.other (by rw [Side.other_other]; exact hcl)
  rw [Side.other_other] at this
  exact this.progress (.refl _ _) hp

theorem ChanStep.done_mono {calls : List HostCall} (h : ChanStep c c' calls) :
    c.done = true → c'.done = true := by
  intro hd
  rcases h.calls with ⟨-, h'⟩ | ⟨-, -, -, hf, -⟩
  · exact h'.trans hd
  · rw [hf] at hd; cases hd

/-- A priority message goes to the wire, and its callback runs on the channel. -/
theorem PairOk.handPriority {op : Channel → Channel × List HostCall} {e : Envelope}
    {rest : List Message} {x : Nat} (h : PairOk p) (hcl : (p.ends s).closed = false)
    (hpr : (p.ends s).priority = .binary e :: rest) (hc : (p.ends s).objects e.number = some c)
    (hstep : ChanStep c (op c).1 (op c).2) (hfs : frames (op c).2 = [])
    (hex : Exchange (op c).1 ((p.view s.other e.number).chan e.number)
      ((p.view s e.number).wire ++ [e]) (numbered e.number rest) (p.view s.other e.number).wire
      (p.view s.other e.number).lane)
    (hop : OpenedAt s e.number ⟨some (op c).1, (p.view s e.number).wire ++ [e],
      numbered e.number rest, (p.ends s).closed⟩ (p.view s.other e.number)) :
    PairOk (p.set s
      (({ p.ends s with priority := rest, prioritySinceBulk := x } : Link).on e.number op)
      (wrote p s (.binary e))) := by
  have hend := h.ends s
  generalize hl₀ : ({ p.ends s with priority := rest, prioritySinceBulk := x } : Link) = l₀
  have hend₀ : EndOk l₀ := by
    subst hl₀
    exact hend.same ⟨rfl, rfl, rfl, rfl, rfl, rfl, rfl, rfl⟩ (fun _ hq => hq) (fun _ hk => hk)
      (fun hc' => absurd (hcl.symm.trans hc') (by decide)) hend.warnings
  have hbase : Base (p.ends s) l₀ e.number := by
    subst hl₀
    refine ⟨rfl, rfl, rfl, rfl, fun _ _ => rfl, fun k hk => ?_⟩
    rw [hpr]
    simp [numbered, Ne.symm hk]
  refine PairOk.event hend₀ (hbase.closed.trans hcl) (by subst hl₀; exact hc) hstep ?_
  intro l' hr
  rw [hfs] at hr
  have hlane : laneFrames l₀ [] = [] := by unfold laneFrames; split <;> rfl
  refine h.replaced hr hbase (by simp) (wrote_numbered rfl) ⟨?_, ?_⟩ ?_ ?_
  · rw [wrote_otherView, hlane, List.append_nil]
    have h1 : numbered e.number (wrote p s (.binary e) s) = (p.view s e.number).wire ++ [e] := by
      simp [Pair.view, numbered]
    subst hl₀
    simp only [View.chan, Option.getD_some]
    rw [h1]
    exact hex
  · rw [wrote_otherView, hlane, List.append_nil]
    have h1 : numbered e.number (wrote p s (.binary e) s) = (p.view s e.number).wire ++ [e] := by
      simp [Pair.view, numbered]
    rw [h1]
    subst hl₀
    exact hop
  · intro hcl'
    have hord := h.order s hcl'
    rw [hpr] at hord
    have := hord.moveHead (hstep.toObjStep.kept hc _) (.refl _)
    rw [wrote_self, hlane]
    subst hl₀
    simpa using this
  · intro _
    rw [wrote_other]
    exact h.orderOther hcl (hstep.toObjStep.progress hc hstep.done_mono)

end

end Simlock.Link
