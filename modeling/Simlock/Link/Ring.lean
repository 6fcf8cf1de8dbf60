import Mathlib.Data.List.Nodup
import Simlock.Link.Lanes

/-! The ring of channels with something to send, whatever the peer does.

    The pump shifts the channel at the head out of the ring, sends its next message and pushes it
    back while it has more:

        ring = n :: rest ─▶ rest ++ [n]    or    rest

    `RingInv` is what every step of an end keeps: the ring and the set beside it hold exactly the
    channels that wait, each once. A `RingStep` lets no channel fall back in the ring. -/

namespace Simlock.Link

open Simlock.Lib

/-! ### The ring of an end -/

/-- The lane of channel `n`. -/
def lanes (l : Link) (n : Nat) : Option Lane := (l.objects n).map Channel.lane

/-- Channel `n` has a message the pump may take. -/
def waiting (l : Link) (n : Nat) : Bool := (l.lanes n).any Lane.waits

/-- The ring and the set beside it hold the channels of `w`, each once. -/
structure Ringed (l : Link) (w : Nat → Bool) : Prop where
  nodup : l.ring.Nodup
  marked : l.inRing.Nodup
  same : ∀ k, k ∈ l.inRing ↔ k ∈ l.ring
  ring : ∀ k, k ∈ l.ring ↔ w k = true

/-- What an end knows of its channels' lanes and of its priority lane. -/
structure RingTable (l : Link) : Prop where
  table : TableOk l
  sends : ∀ n a, l.lanes n = some a → Sends a ∧ a.number = n
  gone : ∀ n a, l.lanes n = some a → n ∉ l.channels → a.done = true
  priority : ∀ e, .binary e ∈ l.priority → e.isBulk = false ∧
    (e.type = .RESET → ∃ a, l.lanes e.number = some a ∧ a.failed = true)

structure RingInv (l : Link) : Prop extends RingTable l where
  ringed : Ringed l (waiting l)

/-- The pump's bookkeeping is as it was. -/
structure SameTurns (l l' : Link) : Prop where
  ring : l'.ring = l.ring
  inRing : l'.inRing = l.inRing
  since : l'.prioritySinceBulk = l.prioritySinceBulk

section
variable {l l' : Link} {w : Nat → Bool} {n : Nat}

theorem SameTurns.trans {l'' : Link} (h : SameTurns l l') (k : SameTurns l' l'') :
    SameTurns l l'' :=
  ⟨k.ring.trans h.ring, k.inRing.trans h.inRing, k.since.trans h.since⟩

theorem Ringed.same_turns (h : Ringed l w) (t : SameTurns l l') : Ringed l' w := by
  obtain ⟨hring, hmarked, -⟩ := t
  refine ⟨?_, ?_, ?_, ?_⟩
  · exact hring ▸ h.nodup
  · exact hmarked ▸ h.marked
  · exact hring ▸ hmarked ▸ h.same
  · exact hring ▸ h.ring

theorem openOwn_turns (hcl : l.closed = false) : SameTurns l l.openOwn.1 := by
  rcases openOwn_spec hcl with ⟨ws, ids, heq, -⟩ | ⟨id, rest, -, -, -, heq⟩ <;>
    exact heq ▸ ⟨rfl, rfl, rfl⟩

theorem channelDone_turns (l : Link) (n : Nat) : SameTurns l (l.channelDone n) := by
  unfold Link.channelDone
  split
  · refine drainWaiters_induct (P := SameTurns l) (fun _ _ h => h.trans ⟨rfl, rfl, rfl⟩)
      (fun _ h hcl _ => h.trans (openOwn_turns hcl)) _ _ ?_
    unfold Link.forget
    split
    · exact ⟨rfl, rfl, rfl⟩
    · dsimp only
      split <;> exact ⟨rfl, rfl, rfl⟩
  · exact ⟨rfl, rfl, rfl⟩

theorem idxOf_erase_le {m n : Nat} (hne : n ≠ m) (ring : List Nat) :
    (ring.erase n).idxOf m ≤ ring.idxOf m := by
  induction ring with
  | nil => exact Nat.le_refl _
  | cons k rest ih => by_cases hk : k = n <;> grind

/-- `l'` comes of `l` by calls of channel `n` to its host, which leave the ring with the channels of
    `w`; a channel that no call takes out of the ring does not fall back. -/
structure Performed (n : Nat) (w : Nat → Bool) (removes : Prop) (l l' : Link) : Prop where
  ringed : Ringed l' w
  since : l'.prioritySinceBulk = l.prioritySinceBulk
  place : ∀ m ∈ l.ring, (n = m → ¬ removes) → m ∈ l'.ring ∧ l'.ring.idxOf m ≤ l.ring.idxOf m

theorem Ringed.perform (h : Ringed l w) (n : Nat) (call : HostCall) :
    Performed n (Function.update w n (call.inRing (w n))) (call = .removeBulk) l
      (l.perform n call) := by
  have hsame : ∀ {l' b p}, b = w n → SameTurns l l' →
      Performed n (Function.update w n b) p l l' := by
    rintro l' b p rfl t
    rw [Function.update_eq_self]
    exact ⟨h.same_turns t, t.since, fun m hm _ => t.ring.symm ▸ ⟨hm, Nat.le_refl _⟩⟩
  cases call with
  | binary e =>
    refine hsame rfl ?_
    unfold Link.perform Link.binary
    dsimp only
    split <;> exact ⟨rfl, rfl, rfl⟩
  | addBulk =>
    unfold Link.perform Link.addBulk
    dsimp only
    split
    · rename_i hn
      exact hsame ((h.ring n).mp ((h.same n).mp hn)).symm ⟨rfl, rfl, rfl⟩
    · rename_i hn
      have hring : n ∉ l.ring := fun hr => hn ((h.same n).mpr hr)
      refine ⟨⟨?_, ?_, fun k => ?_, fun k => ?_⟩, rfl, fun m hm _ =>
        ⟨List.mem_append_left _ hm, (List.idxOf_append_of_mem hm).le⟩⟩
      · simpa using List.Nodup.concat hring h.nodup
      · simpa using List.Nodup.concat hn h.marked
      · simp [h.same k]
      · by_cases hk : k = n <;> simp [HostCall.inRing, hk, h.ring k]
  | removeBulk =>
    unfold Link.perform Link.removeBulk
    dsimp only
    split
    · refine ⟨⟨h.nodup.erase n, h.marked.erase n, fun k => ?_, fun k => ?_⟩, rfl,
        fun m hm hstays => ?_⟩
      · rw [h.marked.mem_erase_iff, h.nodup.mem_erase_iff, h.same k]
      · rw [h.nodup.mem_erase_iff]
        by_cases hk : k = n <;> simp [HostCall.inRing, hk, h.ring k]
      · have hne : n ≠ m := fun heq => hstays heq rfl
        exact ⟨(List.mem_erase_of_ne hne.symm).mpr hm, idxOf_erase_le hne _⟩
    · rename_i hn
      refine hsame (Bool.eq_false_iff.mpr fun hw => hn ?_).symm ⟨rfl, rfl, rfl⟩
      exact (h.same n).mpr ((h.ring n).mpr hw)
  | channelDone => exact hsame rfl (channelDone_turns l n)
  | warn message => exact hsame rfl ⟨rfl, rfl, rfl⟩

/-- Whatever a channel asks for, in whatever order. -/
theorem Ringed.performs (n : Nat) : ∀ (calls : List HostCall) {l : Link} {w : Nat → Bool},
    Ringed l w → Performed n (Function.update w n (calls.foldl HostCall.inRing (w n)))
      (.removeBulk ∈ calls) l (calls.foldl (Link.perform n) l)
  | [], _, _, h => by
    rw [List.foldl_nil, List.foldl_nil, Function.update_eq_self]
    exact ⟨h, rfl, fun m hm _ => ⟨hm, Nat.le_refl _⟩⟩
  | call :: calls, l, w, h => by
    have hone := h.perform n call
    have hrest := Ringed.performs n calls hone.ringed
    rw [Function.update_self, Function.update_idem] at hrest
    refine ⟨hrest.ringed, hrest.since.trans hone.since, fun m hm hstays => ?_⟩
    obtain ⟨hin, hle⟩ := hone.place m hm fun heq hc => hstays heq (hc ▸ List.mem_cons_self)
    obtain ⟨hin', hle'⟩ := hrest.place m hin fun heq hc => hstays heq (List.mem_cons_of_mem _ hc)
    exact ⟨hin', hle'.trans hle⟩

/-! ### What an end does to the lanes -/

theorem RingTable.same (h : RingTable l) (htable : TableOk l') (hlanes : l'.lanes = l.lanes)
    (hchannels : l'.channels = l.channels)
    (hp : ∀ e, .binary e ∈ l'.priority → .binary e ∈ l.priority) : RingTable l' := by
  refine ⟨htable, ?_, ?_, fun e he => ?_⟩
  · rw [hlanes]
    exact h.sends
  · rw [hlanes, hchannels]
    exact h.gone
  · rw [hlanes]
    exact h.priority e (hp e he)

theorem waiting_same (hlanes : l'.lanes = l.lanes) : waiting l' = waiting l := by
  unfold waiting
  rw [hlanes]

theorem waiting_update {b : Lane} (hb : l.lanes n = some b) :
    Function.update (waiting l) n b.waits = waiting l := by
  rw [show b.waits = waiting l n by simp [waiting, hb], Function.update_eq_self]

theorem SameChannels.lanes (t : SameChannels l l') : l'.lanes = l.lanes := by
  unfold Link.lanes
  rw [t.objects]

/-- The lane `b` in the place of channel `n`'s. -/
theorem RingTable.update {b : Lane} (h : RingTable l) (htable : TableOk l')
    (hlanes : l'.lanes = Function.update l.lanes n (some b)) (hsends : Sends b)
    (hnumber : b.number = n) (hchannels : ∀ k, k ≠ n → k ∈ l.channels → k ∈ l'.channels)
    (hgone : n ∉ l'.channels → b.done = true)
    (hfailed : ∀ a, l.lanes n = some a → a.failed = true → b.failed = true)
    (hp : ∀ e, .binary e ∈ l'.priority → .binary e ∈ l.priority ∨
      e.isBulk = false ∧ (e.type = .RESET → e.number = n ∧ b.failed = true)) :
    RingTable l' ∧ waiting l' = Function.update (waiting l) n b.waits := by
  have hself : l'.lanes n = some b := by rw [hlanes, Function.update_self]
  have hne : ∀ {k}, k ≠ n → l'.lanes k = l.lanes k := fun hk => by
    rw [hlanes, Function.update_of_ne hk]
  refine ⟨⟨htable, fun k a ha => ?_, fun k a ha hk => ?_, fun e he => ?_⟩, funext fun k => ?_⟩
  · by_cases hkn : k = n
    · subst hkn
      cases hself.symm.trans ha
      exact ⟨hsends, hnumber⟩
    · exact h.sends k a ((hne hkn).symm.trans ha)
  · by_cases hkn : k = n
    · subst hkn
      cases hself.symm.trans ha
      exact hgone hk
    · exact h.gone k a ((hne hkn).symm.trans ha) fun hmem => hk (hchannels k hkn hmem)
  · rcases hp e he with he | ⟨hlane, hreset⟩
    · refine ⟨(h.priority e he).1, fun ht => ?_⟩
      obtain ⟨a, ha, hf⟩ := (h.priority e he).2 ht
      by_cases hk : e.number = n
      · exact ⟨b, hk.symm ▸ hself, hfailed a (hk ▸ ha) hf⟩
      · exact ⟨a, (hne hk).trans ha, hf⟩
    · exact ⟨hlane, fun ht => ⟨b, (hreset ht).1.symm ▸ hself, (hreset ht).2⟩⟩
  · by_cases hk : k = n
    · rw [hk, Function.update_self, waiting, hself]
      rfl
    · rw [Function.update_of_ne hk, waiting, hne hk, waiting]

theorem lanes_update {c : Channel} (hobjects : l'.objects = Function.update l.objects n (some c)) :
    l'.lanes = Function.update l.lanes n (some c.lane) := by
  funext k
  by_cases hk : k = n <;> simp [Link.lanes, hobjects, hk]

/-- A channel under a number that no channel had. -/
theorem RingTable.insert {own : Bool} {id : String} (h : RingTable l) (htable : TableOk l')
    (hnone : l.objects n = none) (hchannels : l'.channels = l.channels ++ [n])
    (hobjects : l'.objects = Function.update l.objects n (some (Channel.new n id own)))
    (hp : ∀ e, .binary e ∈ l'.priority → .binary e ∈ l.priority ∨ e.type = .OPEN) :
    RingTable l' ∧ waiting l' = waiting l := by
  have hlanes : l.lanes n = none := by simp [Link.lanes, hnone]
  have hw : waiting l n = (Channel.new n id own).lane.waits := by
    simp [waiting, hlanes, Channel.lane, Lane.waits, Channel.new]
  rw [← Function.update_eq_self n (waiting l), hw]
  refine h.update htable (lanes_update hobjects) ⟨by simp [Channel.lane, Channel.new], .nil,
    by simp [Channel.lane, Channel.new], by simp [Channel.lane, Channel.new],
    by simp [Channel.lane, Channel.new], by simp [Channel.lane, Channel.new],
    by simp [Channel.lane, Channel.new]⟩ rfl (by simp_all) (by simp [hchannels])
    (by simp [hlanes]) fun e he => (hp e he).imp_right fun ht => by simp [Envelope.isBulk, ht]

theorem RingTable.openOwn (h : RingTable l) (hcl : l.closed = false) :
    RingTable l.openOwn.1 ∧ waiting l.openOwn.1 = waiting l := by
  have htable := (h.table.openOwn hcl).table
  rcases openOwn_spec hcl with ⟨ws, ids, heq, -⟩ | ⟨id, rest, -, -, -, heq⟩
  · rw [heq] at htable ⊢
    exact ⟨h.same htable rfl rfl fun _ he => he, rfl⟩
  · rw [heq] at htable ⊢
    refine h.insert htable h.table.unused_own rfl rfl fun e he => ?_
    rcases List.mem_append.mp he with he | he
    · exact .inl he
    · cases List.mem_singleton.mp he
      exact .inr rfl

theorem RingTable.channelDone {b : Lane} (h : RingTable l) (hb : l.lanes n = some b)
    (hdone : b.done = true) :
    RingTable (l.channelDone n) ∧ waiting (l.channelDone n) = waiting l := by
  unfold Link.channelDone
  split
  · rename_i hn
    have hforget : RingTable (l.forget n) ∧ waiting (l.forget n) = waiting l := by
      obtain ⟨hlanes, hchannels, hpriority⟩ : (l.forget n).lanes = l.lanes ∧
          (∀ k, k ≠ n → k ∈ l.channels → k ∈ (l.forget n).channels) ∧
          (l.forget n).priority = l.priority := by
        unfold Link.forget
        split
        · exact ⟨rfl, fun _ _ hk => hk, rfl⟩
        · dsimp only
          split <;> exact ⟨rfl, fun _ hk => (List.mem_erase_of_ne hk).mpr, rfl⟩
      rw [← waiting_update hb]
      refine h.update (h.table.forget hn).table ?_ (h.sends n b hb).1 (h.sends n b hb).2 hchannels
        (fun _ => hdone) (fun a ha => ?_) fun e he => .inl (hpriority ▸ he)
      · rw [hlanes, ← hb, Function.update_eq_self]
      · cases hb.symm.trans ha
        exact id
    exact drainWaiters_induct (P := fun l' => RingTable l' ∧ waiting l' = waiting l)
      (fun _ _ h => ⟨h.1.same (h.1.table.same ⟨rfl, rfl, rfl, rfl, rfl, rfl⟩) rfl rfl
        fun _ he => he, h.2⟩)
      (fun _ h hcl _ => ⟨(h.1.openOwn hcl).1, (h.1.openOwn hcl).2.trans h.2⟩) _ _ hforget
  · exact ⟨h, rfl⟩

/-- The calls of a channel whose lane is `b`. -/
theorem RingTable.performs {b : Lane} : ∀ (calls : List HostCall) {l : Link}, RingTable l →
    l.lanes n = some b →
    (∀ e, .binary e ∈ calls → e.isBulk = false ∧
      (e.type = .RESET → e.number = n ∧ b.failed = true)) →
    (.channelDone ∈ calls → b.done = true) →
    RingTable (calls.foldl (Link.perform n) l) ∧
      waiting (calls.foldl (Link.perform n) l) = waiting l
  | [], _, h, _, _, _ => ⟨h, rfl⟩
  | call :: calls, l, h, hb, hbinary, hends => by
    have htable := h.table.perform n call
    have hsame : ∀ {l'}, TableOk l' → SameChannels l l' → l'.priority = l.priority →
        RingTable l' ∧ waiting l' = waiting l := fun ht t hp =>
      ⟨h.same ht t.lanes t.channels fun _ he => hp ▸ he, waiting_same t.lanes⟩
    have hone : RingTable (l.perform n call) ∧ waiting (l.perform n call) = waiting l := by
      cases call with
      | binary e =>
        have t : SameChannels l (l.perform n (.binary e)) := binary_same e
        rw [← waiting_update hb]
        refine h.update htable.table ?_ (h.sends n b hb).1 (h.sends n b hb).2
          (fun k _ hk => t.channels.symm ▸ hk)
          (fun hn => h.gone n b hb (t.channels ▸ hn)) (fun a ha => ?_) fun e' he' => ?_
        · rw [t.lanes, ← hb, Function.update_eq_self]
        · cases hb.symm.trans ha
          exact id
        · unfold Link.perform Link.binary at he'
          dsimp only at he'
          split at he'
          · exact .inl he'
          · rcases List.mem_append.mp he' with he' | he'
            · exact .inl he'
            · cases List.mem_singleton.mp he'
              exact .inr (hbinary e List.mem_cons_self)
      | addBulk =>
        refine hsame htable.table (addBulk_same n) ?_
        unfold Link.perform Link.addBulk
        dsimp only
        split <;> rfl
      | removeBulk =>
        refine hsame htable.table (removeBulk_same n) ?_
        unfold Link.perform Link.removeBulk
        dsimp only
        split <;> rfl
      | channelDone => exact h.channelDone hb (hends List.mem_cons_self)
      | warn message => exact hsame htable.table (warn_same _) rfl
    obtain ⟨c, hc, hlane⟩ := Option.map_eq_some_iff.mp hb
    have hb' : (l.perform n call).lanes n = some b := by
      rw [Link.lanes, htable.objects n c hc, Option.map_some, hlane]
    have hrest := RingTable.performs calls hone.1 hb'
      (fun e he => hbinary e (List.mem_cons_of_mem _ he))
      fun he => hends (List.mem_cons_of_mem _ he)
    exact ⟨hrest.1, hrest.2.trans hone.2⟩

/-! ### Steps -/

/-- A step in which only the channels of `stops` may leave the ring and wait again. -/
structure RingStep (stops : Nat → Prop) (l l' : Link) : Prop where
  inv : RingInv l'
  since : l'.prioritySinceBulk = l.prioritySinceBulk
  place : ∀ m, ¬ stops m → m ∈ l.ring → m ∈ l'.ring → l'.ring.idxOf m ≤ l.ring.idxOf m

section
variable {stops : Nat → Prop}

/-- A step that changes no lane. -/
theorem RingInv.like (h : RingInv l) (htable : TableOk l') (hlanes : l'.lanes = l.lanes)
    (hchannels : l'.channels = l.channels) (u : SameTurns l l')
    (hp : ∀ e, .binary e ∈ l'.priority → .binary e ∈ l.priority) : RingStep stops l l' :=
  ⟨⟨h.toRingTable.same htable hlanes hchannels hp, waiting_same hlanes ▸ h.ringed.same_turns u⟩,
    u.since, fun _ _ _ _ => u.ring ▸ Nat.le_refl _⟩

theorem RingInv.same (h : RingInv l) (t : SameChannels l l') (u : SameTurns l l')
    (hp : ∀ e, .binary e ∈ l'.priority → .binary e ∈ l.priority) : RingStep stops l l' :=
  h.like (h.table.same t) t.lanes t.channels u hp

theorem RingInv.stay (h : RingInv l) : RingStep stops l l := ⟨h, rfl, fun _ _ _ _ => Nat.le_refl _⟩

theorem RingTable.put {c d : Channel} (h : RingTable l) (hc : l.objects n = some c)
    (hkeeps : Keeps c d) (hsends : Sends d.lane) (hnumber : d.lane.number = c.lane.number)
    (hdone : c.lane.done = true → d.lane.done = true)
    (hfailed : c.lane.failed = true → d.lane.failed = true) :
    RingTable (l.put n d) ∧ waiting (l.put n d) = Function.update (waiting l) n d.lane.waits := by
  have hlane : l.lanes n = some c.lane := by simp [Link.lanes, hc]
  refine h.update (h.table.put hc hkeeps) (lanes_update rfl) hsends
    (hnumber.trans (h.sends n _ hlane).2) (fun _ _ hk => hk)
    (fun hn => hdone (h.gone n _ hlane hn)) (fun a ha => ?_) fun _ he => .inl he
  cases hlane.symm.trans ha
  exact hfailed

/-- A method runs on a channel, and the host its calls. -/
theorem RingInv.on {s : Bool} {op : Channel → Channel × List HostCall} (h : RingInv l) (n : Nat)
    (hstops : s = true → stops n) (hkeeps : ∀ c, l.objects n = some c → Keeps c (op c).1)
    (hop : ∀ c, l.objects n = some c → Sends c.lane → c.Asks s (op c)) :
    RingStep stops l (l.on n op) := by
  unfold Link.on
  split
  · exact h.stay
  · rename_i c hc
    have hlane : l.lanes n = some c.lane := by simp [Link.lanes, hc]
    obtain ⟨hsends, hnumber⟩ := h.sends n _ hlane
    have hstep := hop c hc hsends
    obtain ⟨hput, hwput⟩ := h.toRingTable.put hc (hkeeps c hc) hstep.sends hstep.number hstep.done
      hstep.failed
    obtain ⟨htable, hwaiting⟩ := RingTable.performs (op c).2 hput (b := (op c).1.lane)
      (by simp [Link.lanes, Link.put]) (fun e he => ⟨(hstep.binary e he).1,
        fun ht => ((hstep.binary e he).2 ht).imp_left (·.trans hnumber)⟩) hstep.ends
    have hperformed := Ringed.performs n (op c).2
      (h.ringed.same_turns ⟨rfl, rfl, rfl⟩ : Ringed (l.put n (op c).1) (waiting l))
    rw [show waiting l n = c.lane.waits by simp [waiting, hlane], hstep.waits, ← hwput,
      ← hwaiting] at hperformed
    refine ⟨⟨htable, hperformed.ringed⟩, hperformed.since, fun m hm hl hl' => ?_⟩
    refine (hperformed.place m hl fun heq hremoves => ?_).2
    subst heq
    -- a channel that fails or is done waits no more
    have hnot : ∀ {p : Prop}, (op c).1.lane.queue = [] → p := fun hqueue => by
      have hin := (hperformed.ringed.ring _).mp hl'
      rw [hwaiting, hwput, Function.update_self, waits_of_queue hqueue] at hin
      cases hin
    rcases hstep.removes hremoves with hs | hfailed | hdone
    · exact hm (hstops hs)
    · exact hnot (hstep.sends.failed hfailed)
    · exact hnot (hstep.sends.queue_of_done hdone)

/-- Any method but the one for a `STOP`. -/
theorem RingInv.runs {op : Channel → Channel × List HostCall} (h : RingInv l) (n : Nat)
    (hkeeps : ∀ c, l.objects n = some c → Keeps c (op c).1)
    (hop : ∀ c, l.objects n = some c → Sends c.lane → c.Asks false (op c)) :
    RingStep stops l (l.on n op) := h.on n (fun hs => by cases hs) hkeeps hop

theorem RingInv.onTransportClosed (h : RingInv l) : RingStep stops l l.onTransportClosed := by
  have htable := h.table.onTransportClosed
  revert htable
  unfold Link.onTransportClosed
  split
  · exact fun _ => h.stay
  · intro htable
    have hover : ∀ k b, ((if k ∈ l.channels then (l.objects k).map
        (fun c => (c.closeWith ⟨.closed, none⟩).1) else l.objects k).map Channel.lane) = some b →
        (Sends b ∧ b.number = k) ∧ b.done = true := by
      intro k b hb
      split at hb
      · obtain ⟨c, hc, hlane⟩ : ∃ c, l.objects k = some c ∧
            (c.closeWith ⟨.closed, none⟩).1.lane = b := by simpa using hb
        obtain ⟨hs, hn⟩ := h.sends k c.lane (by simp [Link.lanes, hc])
        rw [closeWith_lane hs] at hlane
        subst hlane
        exact ⟨⟨⟨by simp, .nil, by simp, fun he => ⟨rfl, (hs.endGone he).2⟩, fun _ => rfl,
          fun _ => rfl, fun _ => .inl rfl⟩, hn⟩, rfl⟩
      · rename_i hk
        exact ⟨h.sends k b hb, h.gone k b hb hk⟩
    refine ⟨⟨⟨htable, fun k b hb => (hover k b hb).1, fun k b hb _ => (hover k b hb).2,
      fun e he => absurd he List.not_mem_nil⟩, .nil, .nil, fun k => .rfl, fun k => ?_⟩, rfl,
      fun m _ _ hm => absurd hm List.not_mem_nil⟩
    simp only [List.not_mem_nil, false_iff, Bool.not_eq_true, waiting, Option.any_eq_false]
    intro b hb
    obtain ⟨⟨hs, -⟩, hdone⟩ := hover k b hb
    simp [waits_of_queue (hs.queue_of_done hdone)]

theorem RingInv.localStep (h : RingInv l) (a : LocalAction) : RingStep stops l (l.localStep a) := by
  cases a with
  | openChannel w =>
    change RingStep stops l (l.openChannel w)
    unfold Link.openChannel
    split
    · exact h.stay
    · rename_i hcl
      split
      · have hcl : l.closed = false := by simpa using hcl
        obtain ⟨htable, hwaiting⟩ := h.toRingTable.openOwn hcl
        have hturns := openOwn_turns hcl
        exact ⟨⟨htable, hwaiting ▸ h.ringed.same_turns hturns⟩, hturns.since,
          fun _ _ _ _ => hturns.ring ▸ Nat.le_refl _⟩
      · exact h.same ⟨rfl, rfl, rfl, rfl, rfl, rfl⟩ ⟨rfl, rfl, rfl⟩ fun _ he => he
  | abortWaiter w => exact h.same ⟨rfl, rfl, rfl, rfl, rfl, rfl⟩ ⟨rfl, rfl, rfl⟩ fun _ he => he
  | acceptChannel id =>
    change RingStep stops l (l.acceptChannel id)
    unfold Link.acceptChannel
    split
    · exact h.stay
    · rename_i p _
      let l' : Link := { l with unaccepted := l.unaccepted.filter (fun q => q.1 ≠ id) }
      have haccepted : RingStep stops l l' :=
        h.same ⟨rfl, rfl, rfl, rfl, rfl, rfl⟩ ⟨rfl, rfl, rfl⟩ fun _ he => he
      have hmarked : RingStep stops l' (l'.on p.2 fun c => (c.markAccepted, [])) :=
        haccepted.inv.runs p.2 (fun c _ => ⟨rfl, fun hw => ⟨hw.granted, hw.window, hw.held⟩⟩)
          fun c _ hs => .stay hs
      exact ⟨hmarked.inv, hmarked.since, hmarked.place⟩
  | app n call =>
    refine h.runs n (fun c _ => ?_) fun c _ hs => ?_
    · split
      · exact appCall_keeps _ call c
      · exact .refl c
    · split
      · exact appCall_lane hs _ call
      · exact .stay hs
  | sink n =>
    exact h.runs n (fun c _ => (c.sinkNext_sheds _).keeps) fun c _ hs => sinkNext_lane hs _
  | resume n =>
    refine h.runs n (fun c _ => (c.resumeWrite_sheds _).keeps) fun c _ hs => ?_
    unfold Channel.resumeWrite
    split
    · exact .stay hs
    · exact writeLoop_lane _ _ hs
  | written n =>
    change RingStep stops l (l.on n fun c => (c.onItemWritten l.unsentBytes, []))
    exact h.runs n (fun c _ => ⟨rfl, fun hw => ⟨hw.granted, hw.window, hw.held⟩⟩)
      fun c _ hs => .stay hs
  | acceptTimeout n =>
    exact h.runs n (fun c _ => c.acceptTimeout_sheds.keeps) fun c _ hs => acceptTimeout_lane hs
  | stallTimeout n =>
    exact h.runs n (fun c _ => c.stallTimeout_sheds.keeps) fun c _ hs => stallTimeout_lane hs
  | sent unsentBytes =>
    refine h.like (h.table.localStep (.sent unsentBytes)) (funext fun k => ?_) rfl ⟨rfl, rfl, rfl⟩
      fun _ he => he
    change (if k ∈ l.channels then _ else _ : Option Channel).map Channel.lane = l.lanes k
    split
    · rw [Option.map_map]
      rfl
    · rfl
  | sendText t =>
    change RingStep stops l (l.text t)
    refine h.same (text_same t) ?_ fun e he => ?_
    · unfold Link.text
      split <;> exact ⟨rfl, rfl, rfl⟩
    · unfold Link.text at he
      split at he
      · exact he
      · simpa using he
  | generate ids => exact h.same ⟨rfl, rfl, rfl, rfl, rfl, rfl⟩ ⟨rfl, rfl, rfl⟩ fun _ he => he
  | close => exact h.onTransportClosed

theorem RingInv.onOpen (h : RingInv l) (number : Nat) (payload : Bytes) :
    RingStep stops l (l.onOpen number payload) := by
  have hwarn : ∀ w, RingStep stops l (l.warn w) := fun w =>
    h.same (warn_same w) ⟨rfl, rfl, rfl⟩ fun _ he => he
  have htable := h.table.onOpen number payload
  revert htable
  unfold Link.onOpen
  split
  · exact fun _ => hwarn _
  · rename_i hparity
    split
    · exact fun _ => hwarn _
    · rename_i hhigh
      split
      · exact fun _ => hwarn _
      · split
        · exact fun _ => hwarn _
        · split
          · exact fun _ => hwarn _
          · intro htable
            simp only [Bool.or_eq_true, decide_eq_true_eq, not_or] at hparity
            have hnone := h.table.unused_peer hparity.1 (Nat.lt_of_not_le hhigh)
            obtain ⟨hring, hwaiting⟩ :=
              h.toRingTable.insert htable hnone rfl rfl fun _ he => .inl he
            exact ⟨⟨hring, hwaiting ▸ h.ringed.same_turns ⟨rfl, rfl, rfl⟩⟩, rfl,
              fun _ _ _ _ => Nat.le_refl _⟩

end

/-- The peer stops channel `n`. -/
def AnyPeerAction.stops (a : AnyPeerAction) (n : Nat) : Bool :=
  match a with
  | .receive bytes _ =>
    (parseEnvelope bytes).any fun e => isEnvelopeType e.type = some .STOP && e.number = n
  | _ => false

/-- Any step that hands nothing to the transport. -/
theorem RingInv.besides (h : RingInv l) (a : AnyPeerAction) (hpump : a ≠ .pump) :
    RingStep (fun n => a.stops n = true) l (l.anyPeerStep a) := by
  cases a with
  | act a => exact h.localStep a
  | pump => exact absurd rfl hpump
  | receiveText text => exact h.same ⟨rfl, rfl, rfl, rfl, rfl, rfl⟩ ⟨rfl, rfl, rfl⟩ fun _ he => he
  | receive bytes again =>
    have hwarn : ∀ w, RingStep (fun n => (AnyPeerAction.receive bytes again).stops n = true) l
        (l.warn w) := fun w => h.same (warn_same w) ⟨rfl, rfl, rfl⟩ fun _ he => he
    unfold Link.anyPeerStep Link.onBinary
    dsimp only
    split
    · exact hwarn _
    · rename_i e he
      split
      · exact hwarn _
      · exact h.onOpen _ _
      · rename_i type _ htype
        split
        · cases type with
          | OPEN => exact h.stay
          | DATA =>
            exact h.runs _ (fun c _ => c.onData_keeps _ again) fun c _ hs => onData_lane hs _ _
          | END => exact h.runs _ (fun c _ => c.onEnd_keeps again) fun c _ hs => onEnd_lane hs again
          | STOP =>
            refine h.on _ (fun _ => ?_) (fun c _ => c.onStop_sheds.keeps)
              fun c _ hs => onStop_lane hs
            simp [AnyPeerAction.stops, he, htype]
          | CREDIT =>
            exact h.runs _ (fun c _ => (c.onCredit_sheds _ _).keeps)
              fun c _ hs => onCredit_lane hs _ _
          | RESET =>
            exact h.runs _ (fun c _ => (c.onReset_sheds _).keeps) fun c _ hs => onReset_lane hs _
        · split
          · exact h.stay
          · exact hwarn _

/-! ### The pump -/

end

namespace Message

def isBulk : Message → Bool
  | .text _ => false
  | .binary e => e.isBulk

/-- The bytes the scheduler counts. -/
def size : Message → Nat
  | .text t => utf8Length t
  | .binary e => e.bytes.length

/-- The message is one of channel `n`'s own queue. -/
def isFrom (n : Nat) : Message → Bool
  | .text _ => false
  | .binary e => e.isBulk && e.number = n

end Message

section
variable {l l' : Link} {n : Nat}

/-- The pump may take a message of the ring. -/
def canBulk (l : Link) : Bool := !l.ring.isEmpty && l.unsentBytes < unsentMark

/-- What a turn of the pump comes to. -/
inductive Turned (l l' : Link) : Option Message → Prop where
  | idle (same : l' = l) : Turned l l' none
  | priority (m : Message) (inv : RingInv l') (lane : m.isBulk = false)
    (due : l.canBulk = true → l.prioritySinceBulk < priorityShare)
    (since : l'.prioritySinceBulk = l.prioritySinceBulk + m.size)
    (place : ∀ k ∈ l.ring, k ∈ l'.ring → l'.ring.idxOf k ≤ l.ring.idxOf k) : Turned l l' (some m)
  | bulk (m : Message) (n : Nat) (inv : RingInv l') (lane : m.isFrom n = true)
    (place : ∀ k ∈ l.ring, k ≠ n → k ∈ l'.ring → l'.ring.idxOf k < l.ring.idxOf k) :
    Turned l l' (some m)

theorem RingInv.sendPriority (h : RingInv l) {first : Message} {rest : List Message}
    (hp : l.priority = first :: rest)
    (hdue : l.canBulk = true → l.prioritySinceBulk < priorityShare) :
    Turned l l.sendPriority.1 l.sendPriority.2 := by
  have hrest : ∀ since, RingInv { l with priority := rest, prioritySinceBulk := since } := fun _ =>
    ⟨h.toRingTable.same (h.table.same ⟨rfl, rfl, rfl, rfl, rfl, rfl⟩) rfl rfl
        fun e he => hp ▸ List.mem_cons_of_mem _ he,
      h.ringed.nodup, h.ringed.marked, h.ringed.same, h.ringed.ring⟩
  unfold Link.sendPriority
  simp only [hp]
  cases first with
  | text t => exact .priority _ (hrest _) rfl hdue rfl fun _ _ _ => Nat.le_refl _
  | binary e =>
    obtain ⟨hlane, hreset⟩ := h.priority e (hp ▸ List.mem_cons_self)
    have hhanded : RingStep (fun _ => False) { l with
        priority := rest, prioritySinceBulk := l.prioritySinceBulk + e.bytes.length }
        (Link.onPriorityHanded { l with
          priority := rest, prioritySinceBulk := l.prioritySinceBulk + e.bytes.length } e) := by
      unfold Link.onPriorityHanded
      split
      · exact (hrest _).runs _ (fun c _ => ⟨rfl, fun hw => ⟨hw.granted, hw.window, hw.held⟩⟩)
          fun c _ hs => onOpenHanded_lane hs
      · rename_i ht
        refine (hrest _).runs _ (fun c _ => c.onResetHanded_sheds.keeps) fun c hc hs => ?_
        obtain ⟨a, ha, hf⟩ := hreset ht
        have hlane : some c.lane = some a := (congrArg (Option.map Channel.lane) hc).symm.trans ha
        exact onResetHanded_lane hs (Option.some.inj hlane ▸ hf)
      · exact (hrest _).stay
    exact .priority _ hhanded.inv hlane hdue hhanded.since fun k => hhanded.place k id

/-- Channel `n` handed the pump the first of its messages; it goes to the back of the ring while it
    has more. -/
def taken (l : Link) (n : Nat) (rest : List Nat) (c : Channel) (queue : List QueueItem) : Link :=
  { l with
    objects := Function.update l.objects n (some { c with queue := queue })
    ring := if queue.isEmpty then rest else rest ++ [n]
    inRing := if queue.isEmpty then l.inRing.erase n else l.inRing
    prioritySinceBulk := 0 }

/-- A turn for the ring sends the next message of the channel at its head. -/
theorem RingInv.sendBulk (h : RingInv l) {rest : List Nat} (hring : l.ring = n :: rest) :
    Turned l l.sendBulk.1 l.sendBulk.2 := by
  have hw := (h.ringed.ring n).mp (hring ▸ List.mem_cons_self)
  obtain ⟨c, hc, hwaits⟩ : ∃ c, l.objects n = some c ∧ c.lane.waits = true := by
    simpa [waiting, Link.lanes, Option.any_eq_true] using hw
  obtain ⟨hopened, hnext⟩ := Bool.and_eq_true_iff.mp hwaits
  obtain ⟨item, queue, hqueue⟩ := List.exists_cons_of_ne_nil (l := c.queue)
    (by simpa [Channel.lane] using hnext)
  obtain ⟨hsends, hnumber⟩ := h.sends n c.lane (by simp [Link.lanes, hc])
  have hnodup := List.nodup_cons.mp (hring ▸ h.ringed.nodup)
  have hitem := hsends.items item (hqueue ▸ List.mem_cons_self : item ∈ c.queue)
  -- the ring once the channel is back in it, or out of it for good
  have hsame : ∀ k, k ∈ l.inRing ↔ k = n ∨ k ∈ rest := fun k => by
    rw [h.ringed.same k, hring, List.mem_cons]
  have hmem : ∀ k, k ≠ n → (k ∈ rest ↔ waiting l k = true) := fun k hk => by
    rw [← h.ringed.ring k, hring, List.mem_cons, or_iff_right hk]
  have htaken : RingInv (l.taken n rest c queue) := by
    obtain ⟨hput, hwaiting⟩ := h.toRingTable.put (d := { c with queue := queue }) hc
      ⟨rfl, fun hw => ⟨hw.granted, hw.window, hw.held⟩⟩
      (onItemHanded_lane (s := false) hsends hqueue l.unsentBytes).1 rfl id id
    refine ⟨hput.same (hput.table.same ⟨rfl, rfl, rfl, rfl, rfl, rfl⟩) rfl rfl fun _ he => he, ?_⟩
    have htook : waiting (l.taken n rest c queue) = waiting (l.put n { c with queue := queue }) :=
      rfl
    rw [htook, hwaiting]
    cases queue with
    | nil =>
      refine ⟨hnodup.2, h.ringed.marked.erase n, fun k => ?_, fun k => ?_⟩
      · change k ∈ l.inRing.erase n ↔ k ∈ rest
        rw [h.ringed.marked.mem_erase_iff, hsame k]
        by_cases hk : k = n <;> simp [hk, hnodup.1]
      · change k ∈ rest ↔ _
        by_cases hk : k = n
        · simp [hk, hnodup.1, Channel.lane, Lane.waits]
        · simp [hk, hmem k hk]
    | cons i more =>
      have hback : (rest ++ [n]).Nodup := by simpa using List.Nodup.concat hnodup.1 hnodup.2
      refine ⟨hback, h.ringed.marked, fun k => ?_, fun k => ?_⟩
      · change k ∈ l.inRing ↔ k ∈ rest ++ [n]
        rw [hsame k, List.mem_append, List.mem_singleton, or_comm]
      · change k ∈ rest ++ [n] ↔ _
        by_cases hk : k = n
        · simpa [hk, Channel.lane, Lane.waits] using hopened
        · simp [hk, hmem k hk]
  have hsent : l.sendBulk = ((l.taken n rest c queue).on n
      fun c => c.onItemHanded item l.unsentBytes, some (.binary item.envelope)) := by
    unfold Link.sendBulk
    simp only [hring, hc, hqueue]
    cases queue <;> rfl
  have hhanded : RingStep (fun _ => False) (l.taken n rest c queue)
      ((l.taken n rest c queue).on n fun c => c.onItemHanded item l.unsentBytes) := by
    refine htaken.runs n (fun d _ => (d.onItemHanded_sheds item _).keeps) fun d hd _ => ?_
    obtain rfl : d = { c with queue := queue } := by simpa [Link.taken] using hd.symm
    exact (onItemHanded_lane hsends hqueue _).2
  rw [hsent]
  refine .bulk _ n hhanded.inv ?_ fun k hk hkn hk' => ?_
  · simp [Message.isFrom, hitem.1, hitem.2, hnumber]
  · have hrest : k ∈ rest := (List.mem_cons.mp (hring ▸ hk)).resolve_left hkn
    obtain ⟨hin, hplace⟩ : k ∈ (l.taken n rest c queue).ring ∧
        (l.taken n rest c queue).ring.idxOf k = rest.idxOf k := by
      unfold Link.taken
      dsimp only
      split
      · exact ⟨hrest, rfl⟩
      · exact ⟨List.mem_append_left _ hrest, List.idxOf_append_of_mem hrest⟩
    rw [hring, List.idxOf_cons_ne _ (Ne.symm hkn), ← hplace]
    exact Nat.lt_succ_of_le (hhanded.place k id hin hk')

theorem RingInv.pump (h : RingInv l) : Turned l l.pump.1 l.pump.2 := by
  unfold Link.pump
  split
  · exact .idle rfl
  · dsimp only
    split
    · rename_i hturn
      simp only [Bool.and_eq_true, Bool.not_eq_true', Bool.and_eq_false_imp] at hturn
      cases hp : l.priority with
      | nil => simp [hp] at hturn
      | cons first rest =>
        refine h.sendPriority hp fun hbulk => ?_
        simp only [canBulk, Bool.and_eq_true, Bool.not_eq_true'] at hbulk
        simpa using hturn.2 hbulk
    · split
      · cases hring : l.ring with
        | nil => simp_all
        | cons n rest => exact h.sendBulk hring
      · exact .idle rfl

theorem Turned.inv {m : Option Message} (h : Turned l l' m) (hl : RingInv l) : RingInv l' := by
  cases h with
  | idle same => exact same ▸ hl
  | priority m inv lane due since place => exact inv
  | bulk m n inv lane place => exact inv

theorem RingInv.anyPeerStep (h : RingInv l) (a : AnyPeerAction) : RingInv (l.anyPeerStep a) := by
  by_cases ha : a = .pump
  · subst ha
    exact h.pump.inv h
  · exact (h.besides a ha).inv

theorem RingInv.create (worker : Bool) : RingInv (Link.create worker) := by
  refine ⟨⟨.create worker, fun _ _ hc => (by cases hc), fun _ _ hc => (by cases hc),
    fun _ he => absurd he List.not_mem_nil⟩, .nil, .nil, fun _ => .rfl,
    fun k => by simp [Link.create, waiting, Link.lanes]⟩

theorem ringInv_run (worker : Bool) (acts : List AnyPeerAction) :
    RingInv (Lib.run Link.anyPeerStep (Link.create worker) acts) :=
  run_invariant (I := RingInv) (fun _ a h => h.anyPeerStep a) acts _ (.create worker)

/-! ### Whole runs -/

/-- `removeBulk` as the source splices it: the entry at the channel's index, the last where it has
    none. -/
def removeBulkAt (l : Link) (n : Nat) : Link :=
  if n ∈ l.inRing then
    { l with
      inRing := l.inRing.erase n
      ring := if n ∈ l.ring then l.ring.eraseIdx (l.ring.idxOf n) else l.ring.dropLast }
  else l

theorem Ringed.removeBulkAt {w : Nat → Bool} (h : Ringed l w) (n : Nat) :
    l.removeBulkAt n = l.removeBulk n := by
  unfold Link.removeBulkAt Link.removeBulk
  split
  · rename_i hn
    rw [if_pos ((h.same n).mp hn), List.erase_eq_eraseIdx_of_idxOf (l := l.ring) rfl]
  · rfl

/-- Whatever the peer sends, the ring holds exactly the channels whose `OPEN` was handed and whose
    queue is not empty, each once, and so does the set beside it. No removal, whatever was asked
    before it in the same callback, splices out another channel's entry. -/
theorem ring_holds_the_waiting (worker : Bool) (acts : List AnyPeerAction) :
    let l := Lib.run Link.anyPeerStep (Link.create worker) acts
    l.ring.Nodup ∧ (∀ n, n ∈ l.inRing ↔ n ∈ l.ring) ∧
    (∀ n, n ∈ l.ring ↔ ∃ c, l.objects n = some c ∧ c.openHanded = true ∧ c.queue ≠ []) ∧
    ∀ n k (calls : List HostCall), (calls.foldl (Link.perform n) l).removeBulkAt k =
      (calls.foldl (Link.perform n) l).removeBulk k := by
  intro l
  have h : RingInv l := ringInv_run worker acts
  refine ⟨h.ringed.nodup, h.ringed.same, fun n => ?_,
    fun n k calls => (Ringed.performs n calls h.ringed).ringed.removeBulkAt k⟩
  rw [h.ringed.ring n, waiting, Link.lanes]
  cases l.objects n with
  | none => simp
  | some c => simp [Channel.lane, Lane.waits]

/-- What the pump hands to the transport over the steps `acts`. -/
def handsOver (l : Link) : List AnyPeerAction → List Message
  | [] => []
  | a :: acts => (if a = .pump then l.pump.2.toList else []) ++ handsOver (l.anyPeerStep a) acts

theorem isBulk_of_isFrom {m : Message} (h : m.isFrom n = true) : m.isBulk = true := by
  cases m with
  | text t => cases h
  | binary e => exact (Bool.and_eq_true_iff.mp h).1

/-- A run takes its first step, which is a turn of the pump or hands nothing over. -/
theorem handsOver_cons (h : RingInv l) (a : AnyPeerAction) (acts : List AnyPeerAction) :
    (a = .pump ∧ ∃ m, Turned l (l.anyPeerStep a) m ∧
      handsOver l (a :: acts) = m.toList ++ handsOver (l.anyPeerStep a) acts) ∨
    RingStep (fun n => a.stops n = true) l (l.anyPeerStep a) ∧
      handsOver l (a :: acts) = handsOver (l.anyPeerStep a) acts := by
  by_cases ha : a = .pump
  · subst ha
    exact .inl ⟨rfl, _, h.pump, rfl⟩
  · exact .inr ⟨h.besides a ha, by rw [handsOver, if_neg ha, List.nil_append]⟩

theorem RingInv.share : ∀ (acts : List AnyPeerAction) {l : Link}, RingInv l →
    AllSteps Link.anyPeerStep (fun l a => a = .pump → l.canBulk = true) l acts →
    (∀ m ∈ handsOver l acts, m.isBulk = false) → handsOver l acts ≠ [] →
    l.prioritySinceBulk + ((handsOver l acts).dropLast.map Message.size).sum < priorityShare
  | [], _, _, _, _, hsome => absurd rfl hsome
  | a :: acts, l, h, hall, hnone, hsome => by
    have ih := RingInv.share acts (h.anyPeerStep a) hall.2
    rcases handsOver_cons h a acts with ⟨ha, m, hturn, heq⟩ | ⟨hstep, heq⟩
    · rw [heq] at hnone hsome ⊢
      cases hturn with
      | idle same =>
        rw [same] at ih hnone hsome ⊢
        exact ih hnone hsome
      | priority m inv lane due since place =>
        have hdue := due (hall.1 ha)
        cases hrest : handsOver (l.anyPeerStep a) acts with
        | nil => simpa using hdue
        | cons m' rest =>
          have hshare := ih (fun x hx => hnone x (List.mem_append_right _ hx)) (by simp [hrest])
          rw [since, hrest] at hshare
          simpa [List.dropLast_cons_cons, Nat.add_assoc] using hshare
      | bulk m n inv lane place =>
        have hbulk := hnone m (List.mem_append_left _ (by simp))
        rw [isBulk_of_isFrom lane] at hbulk
        cases hbulk
    · rw [heq] at hnone hsome ⊢
      rw [← hstep.since]
      exact ih hnone hsome

theorem RingInv.fair : ∀ (acts : List AnyPeerAction) {l : Link}, RingInv l → n ∈ l.ring →
    AllSteps Link.anyPeerStep (fun l a => n ∈ (l.anyPeerStep a).ring ∧ a.stops n = false) l acts →
    (∀ m ∈ handsOver l acts, m.isFrom n = false) →
    (handsOver l acts).countP Message.isBulk ≤ l.ring.idxOf n
  | [], _, _, _, _, _ => Nat.zero_le _
  | a :: acts, l, h, hin, hall, hnone => by
    have ih := RingInv.fair acts (h.anyPeerStep a) hall.1.1 hall.2
    rcases handsOver_cons h a acts with ⟨-, m, hturn, heq⟩ | ⟨hstep, heq⟩
    · rw [heq] at hnone ⊢
      have hrest := ih fun x hx => hnone x (List.mem_append_right _ hx)
      cases hturn with
      | idle same =>
        rw [same] at hrest ⊢
        exact hrest
      | priority m inv lane due since place =>
        rw [Option.toList_some, List.singleton_append, List.countP_cons_of_neg (by simp [lane])]
        exact hrest.trans (place n hin hall.1.1)
      | bulk m k inv lane place =>
        have hk : n ≠ k := by
          rintro rfl
          rw [hnone m (List.mem_append_left _ (by simp))] at lane
          cases lane
        rw [Option.toList_some, List.singleton_append,
          List.countP_cons_of_pos (isBulk_of_isFrom lane)]
        exact Nat.succ_le_of_lt (hrest.trans_lt (place n hin hk hall.1.1))
    · rw [heq] at hnone ⊢
      exact (ih hnone).trans (hstep.place n (by simp [hall.1.2]) hin hall.1.1)

/-- While bulk may be sent at every turn of the pump and none is, what goes out before the last
    message stays below the share of the priority lane. -/
theorem priority_share (worker : Bool) (before acts : List AnyPeerAction) :
    let l := Lib.run Link.anyPeerStep (Link.create worker) before
    AllSteps Link.anyPeerStep (fun l a => a = .pump → l.canBulk = true) l acts →
    (∀ m ∈ handsOver l acts, m.isBulk = false) →
    ((handsOver l acts).dropLast.map Message.size).sum < priorityShare := by
  intro l hall hnone
  by_cases hsome : handsOver l acts = []
  · rw [hsome]
    decide
  · exact (Nat.le_add_left _ _).trans_lt
      (RingInv.share acts (ringInv_run worker before) hall hnone hsome)

/-- While a channel waits, is not stopped by its peer and is not served, no more bulk messages go
    out than channels stood before it in the ring. -/
theorem ring_is_fair (worker : Bool) (before acts : List AnyPeerAction) (n : Nat) :
    let l := Lib.run Link.anyPeerStep (Link.create worker) before
    n ∈ l.ring →
    AllSteps Link.anyPeerStep (fun l a => n ∈ (l.anyPeerStep a).ring ∧ a.stops n = false) l acts →
    (∀ m ∈ handsOver l acts, m.isFrom n = false) →
    (handsOver l acts).countP Message.isBulk ≤ l.ring.idxOf n :=
  fun hin hall hnone => RingInv.fair acts (ringInv_run worker before) hin hall hnone

/-- Two channels of an end, each with a byte to send. -/
def twoWaiting : List AnyPeerAction :=
  [.act (.generate ["a", "b"]), .act (.openChannel 0), .act (.openChannel 1), .pump, .pump,
    .act (.app 1 (.write [1])), .act (.sink 1), .act (.app 3 (.write [2])), .act (.sink 3)]

theorem priority_share_at :
    let l := Lib.run Link.anyPeerStep (Link.create true) twoWaiting
    ((handsOver l [.act (.sendText "ab"), .act (.sendText "c"), .pump, .pump]).dropLast.map
      Message.size).sum < priorityShare :=
  priority_share true twoWaiting _
    (by decide +kernel) (by decide +kernel)

theorem ring_is_fair_at :
    let l := Lib.run Link.anyPeerStep (Link.create true) twoWaiting
    (handsOver l [.act (.sendText "ab"), .pump, .pump]).countP Message.isBulk ≤ l.ring.idxOf 3 :=
  ring_is_fair true twoWaiting _ 3 (by decide +kernel) (by decide +kernel) (by decide +kernel)

end

end Simlock.Link
