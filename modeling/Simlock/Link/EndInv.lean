import Simlock.Link.Exchange

/-! What holds at one end of a link.

    `EndOk` ties the table of channels, the two counters and the map of channels not yet accepted to
    the channel objects. Everything an end does is put together from a few table changes: a channel
    object is replaced and its messages join the priority lane (`touch`), a channel that ended is
    forgotten, a channel of its own is opened. -/

namespace Simlock.Link

/-- What is known of the channel object `c` with number `n` at end `l`. -/
structure ObjOk (l : Link) (n : Nat) (c : Channel) : Prop where
  ok : ChanOk c
  number : c.number = n
  pos : 1 ≤ n
  small : n ≤ maxChannelNumber
  owned : c.ownedByUs = true ↔ n % 2 = l.ownParity
  own : n % 2 = l.ownParity → n < l.nextOwn
  peer : n % 2 ≠ l.ownParity → n ≤ l.highestPeer
  done : l.closed = false ∨ c.failure.isSome = false → c.done = (c.ours && c.theirs)
  live : l.closed = false → (n ∈ l.channels ↔ c.done = false)

structure EndOk (l : Link) : Prop where
  obj : ∀ n c, l.objects n = some c → ObjOk l n c
  known : ∀ n ∈ l.channels, ∃ c, l.objects n = some c
  nodup : l.channels.Nodup
  nextOwn : l.nextOwn % 2 = l.ownParity ∧ 1 ≤ l.nextOwn
  ownOpen : l.closed = false →
    l.ownOpen = (l.channels.countP (fun n => n % 2 = l.ownParity) : Int)
  peerOpen : l.closed = false →
    l.peerOpen = (l.channels.countP (fun n => n % 2 ≠ l.ownParity) : Int)
  unaccepted : ∀ p ∈ l.unaccepted, p.2 ∈ l.channels ∧ p.2 % 2 ≠ l.ownParity ∧
    ∃ c, l.objects p.2 = some c ∧ c.id = p.1
  ring : ∀ n ∈ l.ring, ∃ c, l.objects n = some c ∧ c.openHanded = true
  closed : l.closed = true → l.channels = [] ∧ l.priority = []
  warnings : ∀ w ∈ l.warnings, w = .noNumbersLeft

/-- Two ends with the same table of channels. -/
structure SameTable (l l' : Link) : Prop where
  worker : l'.worker = l.worker
  channels : l'.channels = l.channels
  objects : l'.objects = l.objects
  nextOwn : l'.nextOwn = l.nextOwn
  highestPeer : l'.highestPeer = l.highestPeer
  ownOpen : l'.ownOpen = l.ownOpen
  peerOpen : l'.peerOpen = l.peerOpen
  closed : l'.closed = l.closed

theorem EndOk.same {l l' : Link} (h : EndOk l) (t : SameTable l l')
    (hun : ∀ p ∈ l'.unaccepted, p ∈ l.unaccepted) (hring : ∀ k ∈ l'.ring, k ∈ l.ring)
    (hpr : l'.closed = true → l'.priority = []) (hwarn : ∀ w ∈ l'.warnings, w = .noNumbersLeft) :
    EndOk l' := by
  have hpar : l'.ownParity = l.ownParity := by rw [ownParity, ownParity, t.worker]
  refine ⟨?_, ?_, ?_, ?_, ?_, ?_, ?_, ?_, ?_, hwarn⟩
  · intro n c hc
    rw [t.objects] at hc
    have := h.obj n c hc
    refine ⟨this.ok, this.number, this.pos, this.small, ?_, ?_, ?_, ?_, ?_⟩
    · rw [hpar]; exact this.owned
    · rw [hpar, t.nextOwn]; exact this.own
    · rw [hpar, t.highestPeer]; exact this.peer
    · rw [t.closed]; exact this.done
    · rw [t.closed, t.channels]; exact this.live
  · rw [t.channels, t.objects]; exact h.known
  · rw [t.channels]; exact h.nodup
  · rw [t.nextOwn, hpar]; exact h.nextOwn
  · rw [t.closed, t.ownOpen, t.channels, hpar]; exact h.ownOpen
  · rw [t.closed, t.peerOpen, t.channels, hpar]; exact h.peerOpen
  · intro p hp
    rw [t.channels, t.objects, hpar]; exact h.unaccepted p (hun p hp)
  · intro n hn
    rw [t.objects]; exact h.ring n (hring n hn)
  · intro hc
    refine ⟨?_, hpr hc⟩
    rw [t.channels]; exact (h.closed (t.closed ▸ hc)).1

/-! ### Replacing a channel object -/

/-- End `l` with channel `n` replaced by `c`, the messages `fs` in the priority lane, and another
    ring. -/
def touch (l : Link) (n : Nat) (c : Channel) (fs : List Envelope) (ring inRing : List Nat) :
    Link :=
  { l with
    objects := Function.update l.objects n (some c)
    priority := l.priority ++ (if l.closed then [] else fs.map .binary)
    ring := ring
    inRing := inRing }

/-- The ring after the calls of channel `n`. -/
def RingOk (l : Link) (n : Nat) (c : Channel) (ring : List Nat) : Prop :=
  ∀ k ∈ ring, k ∈ l.ring ∨ (k = n ∧ c.openHanded = true)

theorem RingOk.refl (l : Link) (n : Nat) (c : Channel) : RingOk l n c l.ring := fun _ h => .inl h

theorem foldl_perform {c : Channel} (n : Nat) : ∀ (calls : List HostCall) (l : Link),
    (∀ x ∈ calls, CallOk c x) → ∃ ring inRing,
      calls.foldl (Link.perform n) l =
        { l with
          priority := l.priority ++ (if l.closed then [] else (frames calls).map .binary)
          ring := ring
          inRing := inRing } ∧ RingOk l n c ring
  | [], l, _ => by
    refine ⟨l.ring, l.inRing, ?_, .refl l n c⟩
    simp [frames]
  | x :: calls, l, h => by
    obtain ⟨hx, hcalls⟩ := List.forall_mem_cons.mp h
    rw [List.foldl_cons]
    cases x with
    | channelDone => exact hx.elim
    | warn m => exact hx.elim
    | binary e =>
      obtain ⟨ring, inRing, heq, hring⟩ := foldl_perform n calls (l.perform n (.binary e)) hcalls
      refine ⟨ring, inRing, ?_, ?_⟩
      · rw [heq]
        cases hc : l.closed <;> simp [Link.perform, Link.binary, hc, frames]
      · have : (l.perform n (.binary e)).ring = l.ring := by
          simp only [Link.perform, Link.binary]
          split <;> rfl
        intro k hk
        rw [← this]
        exact hring k hk
    | addBulk =>
      obtain ⟨ring, inRing, heq, hring⟩ := foldl_perform n calls (l.perform n .addBulk) hcalls
      refine ⟨ring, inRing, ?_, ?_⟩
      · rw [heq]
        simp only [Link.perform, Link.addBulk]
        split <;> simp [frames]
      · intro k hk
        rcases hring k hk with hk | hk
        · simp only [Link.perform, Link.addBulk] at hk
          split at hk
          · exact .inl hk
          · rcases List.mem_append.mp hk with hk | hk
            · exact .inl hk
            · exact .inr ⟨List.mem_singleton.mp hk, hx⟩
        · exact .inr hk
    | removeBulk =>
      obtain ⟨ring, inRing, heq, hring⟩ := foldl_perform n calls (l.perform n .removeBulk) hcalls
      refine ⟨ring, inRing, ?_, ?_⟩
      · rw [heq]
        simp only [Link.perform, Link.removeBulk]
        split <;> simp [frames]
      · intro k hk
        rcases hring k hk with hk | hk
        · simp only [Link.perform, Link.removeBulk] at hk
          split at hk
          · exact .inl (List.mem_of_mem_erase hk)
          · exact .inl hk
        · exact .inr hk

/-- What `on` makes of an end: the channel goes on, or it has just ended and the link forgets it. -/
theorem on_spec {l : Link} {n : Nat} {c : Channel} {op : Channel → Channel × List HostCall}
    (hc : l.objects n = some c) (hstep : ChanStep c (op c).1 (op c).2) :
    ∃ ring inRing, RingOk l n (op c).1 ring ∧
      (((op c).1.done = c.done ∧ l.on n op = l.touch n (op c).1 (frames (op c).2) ring inRing) ∨
        (c.done = false ∧ (op c).1.done = true ∧
          l.on n op = (l.touch n (op c).1 (frames (op c).2) ring inRing).channelDone n)) := by
  unfold Link.on
  rw [hc]
  dsimp only
  rcases hstep.calls with ⟨hcalls, hd⟩ | ⟨pre, hpre, hcalls, hd, hd'⟩
  · obtain ⟨ring, inRing, heq, hring⟩ := foldl_perform n (op c).2 (l.put n (op c).1) hcalls
    exact ⟨ring, inRing, hring, .inl ⟨hd, heq⟩⟩
  · obtain ⟨ring, inRing, heq, hring⟩ := foldl_perform n pre (l.put n (op c).1) hcalls
    refine ⟨ring, inRing, hring, .inr ⟨hd, hd', ?_⟩⟩
    rw [hpre, List.foldl_append, heq, frames_append]
    simp only [frames, List.filterMap_cons, List.filterMap_nil, List.append_nil, List.foldl_cons,
      List.foldl_nil]
    rfl

section
variable {l : Link} {n : Nat} {c c' : Channel} {fs : List Envelope} {ring inRing : List Nat}

theorem touch_objects_ne {k : Nat} (h : k ≠ n) :
    (l.touch n c fs ring inRing).objects k = l.objects k := Function.update_of_ne h _ _

theorem touch_objects_self : (l.touch n c fs ring inRing).objects n = some c :=
  Function.update_self _ _ _

/-- The facts about an object that its own methods keep. -/
theorem ObjOk.step (h : ObjOk l n c) (hstep : ObjStep c c') (hd : c'.done = c.done)
    (hdone : l.closed = false ∨ c'.failure.isSome = false → c'.done = (c'.ours && c'.theirs)) :
    ObjOk l n c' :=
  ⟨hstep.ok, hstep.number.trans h.number, h.pos, h.small, hstep.owned ▸ h.owned, h.own, h.peer,
    hdone, fun hcl => hd ▸ h.live hcl⟩

theorem EndOk.touch (h : EndOk l) (hc : l.objects n = some c) (hstep : ObjStep c c')
    (hd : c'.done = c.done)
    (hdone : l.closed = false ∨ c'.failure.isSome = false → c'.done = (c'.ours && c'.theirs))
    (hring : RingOk l n c' ring) :
    EndOk (l.touch n c' fs ring inRing) := by
  refine ⟨?_, ?_, h.nodup, h.nextOwn, h.ownOpen, h.peerOpen, ?_, ?_, ?_, h.warnings⟩
  · intro k d hk
    by_cases hkn : k = n
    · subst hkn
      rw [touch_objects_self, Option.some.injEq] at hk
      subst hk
      have := (h.obj k c hc).step hstep hd hdone
      exact ⟨this.ok, this.number, this.pos, this.small, this.owned, this.own, this.peer, this.done,
        this.live⟩
    · rw [touch_objects_ne hkn] at hk
      have := h.obj k d hk
      exact ⟨this.ok, this.number, this.pos, this.small, this.owned, this.own, this.peer, this.done,
        this.live⟩
  · intro k hk
    by_cases hkn : k = n
    · exact ⟨c', hkn ▸ touch_objects_self⟩
    · rw [touch_objects_ne hkn]; exact h.known k hk
  · intro p hp
    obtain ⟨h1, h2, d, h3, h4⟩ := h.unaccepted p hp
    refine ⟨h1, h2, ?_⟩
    by_cases hkn : p.2 = n
    · rw [hkn] at h3 ⊢
      rw [h3, Option.some.injEq] at hc
      exact ⟨c', touch_objects_self, by rw [hstep.id, ← hc]; exact h4⟩
    · exact ⟨d, by rw [touch_objects_ne hkn]; exact h3, h4⟩
  · intro k hk
    by_cases hkn : k = n
    · refine ⟨c', hkn ▸ touch_objects_self, ?_⟩
      rcases hring k hk with hk | hk
      · obtain ⟨d, hd1, hd2⟩ := h.ring k hk
        rw [hkn, hc, Option.some.injEq] at hd1
        exact hstep.opened (hd1 ▸ hd2)
      · exact hk.2
    · rw [touch_objects_ne hkn]
      rcases hring k hk with hk | hk
      · exact h.ring k hk
      · exact absurd hk.1 hkn
  · intro hcl
    have hcl' : l.closed = true := hcl
    obtain ⟨h1, h2⟩ := h.closed hcl'
    refine ⟨h1, ?_⟩
    show l.priority ++ (if l.closed then [] else fs.map .binary) = []
    rw [h2, if_pos hcl']; rfl

/-! ### Forgetting a channel that ended -/

/-- A channel that is replaced by an ended one and forgotten at once. -/
theorem EndOk.forget {calls : List HostCall} (h : EndOk l) (hc : l.objects n = some c)
    (hstep : ChanStep c c' calls) (hd : c.done = false) (hd' : c'.done = true)
    (hring : RingOk l n c' ring) (hcl : l.closed = false) :
    EndOk ((l.touch n c' fs ring inRing).forget n) ∧ n ∈ l.channels := by
  have hobj := h.obj n c hc
  have hmem : n ∈ l.channels := (hobj.live hcl).mpr hd
  have hown : (l.ownParity = n % 2 ↔ c'.ownedByUs = true) := by
    rw [hstep.owned, hobj.owned, eq_comm]
  have herase : ∀ k, k ∈ l.channels.erase n ↔ k ∈ l.channels ∧ k ≠ n := by
    intro k
    rw [h.nodup.mem_erase_iff]; exact and_comm
  refine ⟨?_, hmem⟩
  unfold Link.forget
  rw [touch_objects_self]
  dsimp only
  have hcount : ∀ q : Nat → Bool, ((l.channels.erase n).countP q : Int) =
      (l.channels.countP q : Int) - (if q n then 1 else 0) := by
    intro q
    have := (List.perm_cons_erase hmem).countP_eq q
    rw [List.countP_cons] at this
    split at this <;> simp_all
  have hobjs : ∀ k d, Function.update l.objects n (some c') k = some d →
      ChanOk d ∧ d.number = k ∧ 1 ≤ k ∧ k ≤ maxChannelNumber ∧
      (d.ownedByUs = true ↔ k % 2 = l.ownParity) ∧ (k % 2 = l.ownParity → k < l.nextOwn) ∧
      (k % 2 ≠ l.ownParity → k ≤ l.highestPeer) ∧ d.done = (d.ours && d.theirs) ∧
      (k ∈ l.channels.erase n ↔ d.done = false) := by
    intro k d hk
    by_cases hkn : k = n
    · subst hkn
      rw [Function.update_self, Option.some.injEq] at hk
      subst hk
      refine ⟨hstep.ok, hstep.number.trans hobj.number, hobj.pos, hobj.small, hstep.owned ▸ hobj.owned,
        hobj.own, hobj.peer, hstep.done, ?_⟩
      rw [herase, hd']
      simp
    · rw [Function.update_of_ne hkn] at hk
      have := h.obj k d hk
      refine ⟨this.ok, this.number, this.pos, this.small, this.owned, this.own, this.peer,
        this.done (.inl hcl), ?_⟩
      rw [herase, ← this.live hcl]
      simp [hkn]
  have hknown : ∀ k ∈ l.channels.erase n,
      ∃ d, Function.update l.objects n (some c') k = some d := by
    intro k hk
    obtain ⟨hk, hkn⟩ := (herase k).mp hk
    rw [Function.update_of_ne hkn]; exact h.known k hk
  have hunacc : ∀ p ∈ l.unaccepted.filter (fun p => p.2 ≠ n), p.2 ∈ l.channels.erase n ∧
      p.2 % 2 ≠ l.ownParity ∧
      ∃ d, Function.update l.objects n (some c') p.2 = some d ∧ d.id = p.1 := by
    intro p hp
    obtain ⟨hp, hpn⟩ := List.mem_filter.mp hp
    have hpn : p.2 ≠ n := by simpa using hpn
    obtain ⟨h1, h2, h3⟩ := h.unaccepted p hp
    exact ⟨(herase _).mpr ⟨h1, hpn⟩, h2, by rw [Function.update_of_ne hpn]; exact h3⟩
  have hringObj : ∀ k ∈ ring, ∃ d, Function.update l.objects n (some c') k = some d ∧
      d.openHanded = true := by
    intro k hk
    by_cases hkn : k = n
    · subst hkn
      rw [Function.update_self]
      refine ⟨c', rfl, ?_⟩
      rcases hring k hk with hk | hk
      · obtain ⟨d, hd1, hd2⟩ := h.ring k hk
        rw [hc, Option.some.injEq] at hd1
        exact hstep.opened (hd1 ▸ hd2)
      · exact hk.2
    · rw [Function.update_of_ne hkn]
      rcases hring k hk with hk | hk
      · exact h.ring k hk
      · exact absurd hk.1 hkn
  cases how : c'.ownedByUs with
  | true =>
    have hpar : n % 2 = l.ownParity := (hown.mpr how).symm
    rw [if_pos rfl]
    refine ⟨?_, hknown, h.nodup.erase n, h.nextOwn, ?_, ?_, hunacc, hringObj, ?_, h.warnings⟩
    · intro k d hk
      obtain ⟨h1, h2, h3, h4, h5, h6, h7, h8, h9⟩ := hobjs k d hk
      exact ⟨h1, h2, h3, h4, h5, h6, h7, fun _ => h8, fun _ => h9⟩
    · intro _
      show l.ownOpen - 1 = ((l.channels.erase n).countP (fun k => k % 2 = l.ownParity) : Int)
      rw [h.ownOpen hcl, hcount]
      simp [hpar]
    · intro _
      show l.peerOpen = ((l.channels.erase n).countP (fun k => k % 2 ≠ l.ownParity) : Int)
      rw [h.peerOpen hcl, hcount]
      simp [hpar]
    · intro hcl'
      exact absurd (hcl.symm.trans hcl') (by decide)
  | false =>
    have hpar : n % 2 ≠ l.ownParity := by
      intro hp
      have := hown.mp hp.symm
      rw [how] at this; cases this
    rw [if_neg (by simp)]
    refine ⟨?_, hknown, h.nodup.erase n, h.nextOwn, ?_, ?_, hunacc, hringObj, ?_, h.warnings⟩
    · intro k d hk
      obtain ⟨h1, h2, h3, h4, h5, h6, h7, h8, h9⟩ := hobjs k d hk
      exact ⟨h1, h2, h3, h4, h5, h6, h7, fun _ => h8, fun _ => h9⟩
    · intro _
      show l.ownOpen = ((l.channels.erase n).countP (fun k => k % 2 = l.ownParity) : Int)
      rw [h.ownOpen hcl, hcount]
      simp [hpar]
    · intro _
      show l.peerOpen - 1 = ((l.channels.erase n).countP (fun k => k % 2 ≠ l.ownParity) : Int)
      rw [h.peerOpen hcl, hcount]
      simp [hpar]
    · intro hcl'
      exact absurd (hcl.symm.trans hcl') (by decide)

end

/-! ### Opening a channel -/

theorem newId_some {live : List String} : ∀ {ids : List String} {id : String} {rest : List String},
    newId live ids = (some id, rest) → isChannelId id = true ∧ id ∉ live
  | [], _, _, h => by simp [newId] at h
  | i :: ids, id, rest, h => by
    rw [newId] at h
    split at h
    · cases h
    · next hvalid =>
      split at h
      · exact newId_some h
      · next hmem =>
        simp only [Prod.mk.injEq, Option.some.injEq] at h
        exact h.1 ▸ ⟨by simpa using hvalid, hmem⟩

/-- End `l` with one more channel of its own. -/
def openedOwn (l : Link) (id : String) (rest : List String) : Link :=
  { l with
    generatedIds := rest
    nextOwn := l.nextOwn + 2
    objects := Function.update l.objects l.nextOwn (some (Channel.new l.nextOwn id true))
    priority := l.priority ++ [.binary ⟨.OPEN, l.nextOwn, encodeId id⟩]
    channels := l.channels ++ [l.nextOwn]
    ownOpen := l.ownOpen + 1 }

theorem openOwn_spec {l : Link} (hcl : l.closed = false) :
    (∃ ws ids, l.openOwn.1 = { l with warnings := ws, generatedIds := ids } ∧
      ((∀ w ∈ l.warnings, w = .noNumbersLeft) → ∀ w ∈ ws, w = .noNumbersLeft)) ∨
    (∃ id rest, l.nextOwn ≤ maxChannelNumber ∧ isChannelId id = true ∧ id ∉ l.liveIds ∧
      l.openOwn.1 = l.openedOwn id rest) := by
  unfold openOwn
  split
  · refine .inl ⟨_, l.generatedIds, rfl, fun h => ?_⟩
    exact List.forall_mem_append.mpr ⟨h, by simp⟩
  · next hmax =>
    cases hid : newId l.liveIds l.generatedIds with
    | mk o rest =>
      cases o with
      | none => exact .inl ⟨l.warnings, rest, rfl, id⟩
      | some i =>
        obtain ⟨hvalid, hlive⟩ := newId_some hid
        refine .inr ⟨i, rest, by omega, hvalid, hlive, ?_⟩
        simp [openedOwn, binary, put, hcl]

theorem EndOk.fresh {l : Link} (h : EndOk l) : l.objects l.nextOwn = none := by
  cases ho : l.objects l.nextOwn with
  | none => rfl
  | some c =>
    have := (h.obj _ c ho).own h.nextOwn.1
    omega

theorem new_ok (n : Nat) (id : String) (own : Bool) : ChanOk (Channel.new n id own) :=
  ⟨by simp [Channel.new, maxDataBytes, KIB], by simp [Channel.new], by simp [Channel.new],
    by simp [Channel.new]⟩

theorem EndOk.openedOwn {l : Link} (h : EndOk l) (hcl : l.closed = false)
    (hmax : l.nextOwn ≤ maxChannelNumber) (id : String) (rest : List String) :
    EndOk (l.openedOwn id rest) := by
  have hnone := h.fresh
  have hnot : l.nextOwn ∉ l.channels := by
    intro hmem
    obtain ⟨c, hc⟩ := h.known _ hmem
    rw [hnone] at hc; cases hc
  have hpar : (l.openedOwn id rest).ownParity = l.ownParity := rfl
  have hne : ∀ k c, l.objects k = some c → k ≠ l.nextOwn := by
    rintro k c hk rfl
    rw [hnone] at hk; cases hk
  refine ⟨?_, ?_, ?_, ?_, ?_, ?_, ?_, ?_, ?_, h.warnings⟩
  · intro k c hk
    by_cases hkn : k = l.nextOwn
    · subst hkn
      have hc : Channel.new l.nextOwn id true = c := by
        simpa [Link.openedOwn] using hk
      subst hc
      refine ⟨new_ok _ _ _, rfl, h.nextOwn.2, hmax, ?_, ?_, ?_, fun _ => rfl, ?_⟩
      · simpa [Channel.new, hpar] using h.nextOwn.1
      · intro _; show l.nextOwn < l.nextOwn + 2; omega
      · intro hp; exact absurd h.nextOwn.1 hp
      · intro _; simp [Link.openedOwn, Channel.new]
    · have hk' : l.objects k = some c := by
        simpa [Link.openedOwn, Function.update_of_ne hkn] using hk
      have := h.obj k c hk'
      refine ⟨this.ok, this.number, this.pos, this.small, this.owned, ?_, this.peer, this.done, ?_⟩
      · intro hp
        have := this.own hp
        show k < l.nextOwn + 2; omega
      · intro hcl'
        rw [← this.live hcl']
        simp [Link.openedOwn, hkn]
  · intro k hk
    rcases List.mem_append.mp hk with hk | hk
    · obtain ⟨c, hc⟩ := h.known k hk
      exact ⟨c, by simp [Link.openedOwn, Function.update_of_ne (hne k c hc), hc]⟩
    · rw [List.mem_singleton.mp hk]
      exact ⟨_, by simp [Link.openedOwn]; rfl⟩
  · exact List.nodup_append.mpr ⟨h.nodup, by simp, fun x hx y hy hxy =>
      hnot (List.mem_singleton.mp hy ▸ hxy ▸ hx)⟩
  · refine ⟨?_, ?_⟩
    · show (l.nextOwn + 2) % 2 = l.ownParity
      have := h.nextOwn.1; omega
    · show 1 ≤ l.nextOwn + 2; omega
  · intro hcl'
    show l.ownOpen + 1 = ((l.channels ++ [l.nextOwn]).countP (fun n => n % 2 = l.ownParity) : Int)
    rw [h.ownOpen hcl, List.countP_append]
    simp [h.nextOwn.1]
  · intro hcl'
    show l.peerOpen = ((l.channels ++ [l.nextOwn]).countP (fun n => n % 2 ≠ l.ownParity) : Int)
    rw [h.peerOpen hcl, List.countP_append]
    simp [h.nextOwn.1]
  · intro p hp
    obtain ⟨h1, h2, c, h3, h4⟩ := h.unaccepted p hp
    exact ⟨List.mem_append_left _ h1, h2, c,
      by simp [Link.openedOwn, Function.update_of_ne (hne _ c h3), h3], h4⟩
  · intro k hk
    obtain ⟨c, h1, h2⟩ := h.ring k hk
    exact ⟨c, by simp [Link.openedOwn, Function.update_of_ne (hne _ c h1), h1], h2⟩
  · intro hcl'
    exact absurd (hcl.symm.trans hcl') (by decide)

/-- What every opening keeps, draining the waiters keeps. -/
theorem drainWaiters_induct {P : Link → Prop} (hw : ∀ l ws, P l → P { l with waiters := ws })
    (ho : ∀ l, P l → l.closed = false → l.ownOpen < openLimit → P l.openOwn.1) :
    ∀ (ws : List Nat) (l : Link), P l → P (drainWaiters ws l)
  | [], l, h => hw l [] h
  | w :: ws, l, h => by
    rw [drainWaiters]
    split
    · next hc =>
      simp only [Bool.and_eq_true, decide_eq_true_eq, Bool.not_eq_true'] at hc
      exact drainWaiters_induct hw ho ws _ (ho _ (hw l ws h) hc.2 hc.1)
    · exact hw l _ h

/-! ### Accepting a channel of the peer -/

/-- End `l` with one more channel of its peer. -/
def openedPeer (l : Link) (number : Nat) (id : String) : Link :=
  { l.put number (Channel.new number id false) with
    highestPeer := number
    channels := l.channels ++ [number]
    unaccepted := l.unaccepted ++ [(id, number)]
    peerOpen := l.peerOpen + 1 }

theorem EndOk.openedPeer {l : Link} (h : EndOk l) (hcl : l.closed = false) {n : Nat} {id : String}
    (hpar : n % 2 ≠ l.ownParity) (hhigh : l.highestPeer < n) (hmax : n ≤ maxChannelNumber) :
    EndOk (l.openedPeer n id) := by
  have hnone : l.objects n = none := by
    cases ho : l.objects n with
    | none => rfl
    | some c => have := (h.obj _ c ho).peer hpar; omega
  have hne : ∀ k c, l.objects k = some c → k ≠ n := by
    rintro k c hk rfl
    rw [hnone] at hk; cases hk
  have hnot : n ∉ l.channels := by
    intro hmem
    obtain ⟨c, hc⟩ := h.known _ hmem
    exact hne n c hc rfl
  refine ⟨?_, ?_, ?_, h.nextOwn, ?_, ?_, ?_, ?_, ?_, h.warnings⟩
  · intro k c hk
    by_cases hkn : k = n
    · subst hkn
      have hc : Channel.new k id false = c := by
        simpa [Link.openedPeer, put] using hk
      subst hc
      refine ⟨new_ok _ _ _, rfl, by omega, hmax, ?_, fun hp => absurd hp hpar, fun _ => le_refl _,
        fun _ => rfl, ?_⟩
      · simp only [Channel.new, Bool.false_eq_true, false_iff]; exact hpar
      · intro _; simp [Link.openedPeer, Channel.new]
    · have hk' : l.objects k = some c := by
        simpa [Link.openedPeer, put, Function.update_of_ne hkn] using hk
      have := h.obj k c hk'
      refine ⟨this.ok, this.number, this.pos, this.small, this.owned, this.own, ?_, this.done, ?_⟩
      · intro hp
        have := this.peer hp
        show k ≤ n; omega
      · intro hcl'
        rw [← this.live hcl']
        simp [Link.openedPeer, hkn]
  · intro k hk
    rcases List.mem_append.mp hk with hk | hk
    · obtain ⟨c, hc⟩ := h.known k hk
      exact ⟨c, by simp [Link.openedPeer, put, Function.update_of_ne (hne k c hc), hc]⟩
    · rw [List.mem_singleton.mp hk]
      exact ⟨_, by simp [Link.openedPeer, put]; rfl⟩
  · exact List.nodup_append.mpr ⟨h.nodup, by simp, fun x hx y hy hxy =>
      hnot (List.mem_singleton.mp hy ▸ hxy ▸ hx)⟩
  · intro _
    show l.ownOpen = ((l.channels ++ [n]).countP (fun n => n % 2 = l.ownParity) : Int)
    rw [h.ownOpen hcl, List.countP_append]
    simp [hpar]
  · intro _
    show l.peerOpen + 1 = ((l.channels ++ [n]).countP (fun n => n % 2 ≠ l.ownParity) : Int)
    rw [h.peerOpen hcl, List.countP_append]
    simp [hpar]
  · intro p hp
    rcases List.mem_append.mp hp with hp | hp
    · obtain ⟨h1, h2, c, h3, h4⟩ := h.unaccepted p hp
      exact ⟨List.mem_append_left _ h1, h2, c,
        by simp [Link.openedPeer, put, Function.update_of_ne (hne _ c h3), h3], h4⟩
    · rw [List.mem_singleton.mp hp]
      exact ⟨List.mem_append_right _ (List.mem_singleton_self n), hpar,
        Channel.new n id false, by simp [Link.openedPeer, put], rfl⟩
  · intro k hk
    obtain ⟨c, h1, h2⟩ := h.ring k hk
    exact ⟨c, by simp [Link.openedPeer, put, Function.update_of_ne (hne _ c h1), h1], h2⟩
  · intro hcl'
    exact absurd (hcl.symm.trans hcl') (by decide)

end Simlock.Link
