import Simlock.History.Boards

/-! A live projector and a replaying one, side by side.

    `Alike` says that the two have the same tables and know the same of the current run; `Twin` adds
    that each counts the waiting requests and held leases rightly. Their tallies may differ in the
    platforms that stand at zero. Every event keeps twins, with one proviso for the events that
    publish a tally for every platform it holds. -/

namespace Simlock.History

open Core (Platform Json Payload payloadOf)
open Lib (Tally)

/-- No row of the tables is older than `t`. -/
structure Since (t : ℚ) (p : Projector) : Prop where
  requests : ∀ r ∈ p.requests, t ≤ r.requestedAt
  heldLeases : ∀ l ∈ p.heldLeases, t ≤ l.heldAt
  gaps : ∀ g ∈ p.gaps, t ≤ g.gapAt
  facts : ∀ f ∈ p.facts, t ≤ f.factAt
  board : p.board.Since (minuteOf t)

structure Alike (t : ℚ) (p q : Projector) : Prop where
  fleet : q.fleet = p.fleet
  requests : q.requests = p.requests
  heldLeases : q.heldLeases = p.heldLeases
  gaps : q.gaps = p.gaps
  facts : q.facts = p.facts
  board : p.board.Same q.board
  queues : q.queues = p.queues
  ids : (p.requests.map RequestRow.requestId).Nodup
  leases : (p.heldLeases.map (fun l => (l.workerId, l.leaseId))).Nodup
  since : Since t p

/-- The projector's tallies are those of its tables. -/
structure Counted (p : Projector) : Prop where
  waiting : p.waiting.Counts (waitingPlatforms p.requests)
  held : ∀ w, (p.held w).Counts (heldPlatforms p.heldLeases w)

structure Twin (t : ℚ) (p q : Projector) : Prop where
  alike : Alike t p q
  left : Counted p
  right : Counted q

section
variable {t atMs : ℚ} {p q : Projector}

theorem Alike.counted (h : Alike t p q) (hq : Counted q) :
    q.waiting.Counts (waitingPlatforms p.requests) ∧
      ∀ w, (q.held w).Counts (heldPlatforms p.heldLeases w) := by
  rw [← h.requests, ← h.heldLeases]
  exact ⟨hq.waiting, hq.held⟩

/-! ### The rows that count -/

theorem waitingPlatforms_append (rows rows' : List RequestRow) :
    waitingPlatforms (rows ++ rows') = waitingPlatforms rows ++ waitingPlatforms rows' := by
  simp [waitingPlatforms]

theorem waitingPlatforms_cons (r : RequestRow) (rows : List RequestRow) :
    waitingPlatforms (r :: rows) =
      (if r.isWaiting then [r.platform] else []) ++ waitingPlatforms rows := by
  unfold waitingPlatforms
  rw [List.filter_cons]
  split <;> rfl

/-- A change of rows that does not touch what counts. -/
structure Quiet (f : RequestRow → RequestRow) : Prop where
  requestId : ∀ r, (f r).requestId = r.requestId
  requestedAt : ∀ r, (f r).requestedAt = r.requestedAt
  platform : ∀ r, (f r).platform = r.platform
  waiting : ∀ r, (f r).isWaiting = r.isWaiting

theorem Quiet.waitingPlatforms {f : RequestRow → RequestRow} (h : Quiet f) (rows : List RequestRow) :
    waitingPlatforms (rows.map f) = waitingPlatforms rows := by
  induction rows with
  | nil => rfl
  | cons r rows ih =>
    rw [List.map_cons, waitingPlatforms_cons, waitingPlatforms_cons, ih, h.waiting, h.platform]

/-- An outcome closes a row. -/
structure Closes (f : RequestRow → RequestRow) : Prop where
  requestId : ∀ r, (f r).requestId = r.requestId
  requestedAt : ∀ r, (f r).requestedAt = r.requestedAt
  closed : ∀ r, (f r).isWaiting = false

theorem reject_closes (atMs : ℚ) (declined : Bool) (reason workerId : Option String) :
    Closes (RequestRow.reject atMs declined reason workerId) :=
  ⟨fun _ => rfl, fun _ => rfl, fun r => by
    simp [RequestRow.isWaiting, RequestRow.isOpen, RequestRow.reject]⟩

theorem grant_closes (atMs : ℚ) (leaseId : String) (source : Option LeaseSource) :
    Closes (RequestRow.grant atMs leaseId source) :=
  ⟨fun _ => rfl, fun _ => rfl, fun r => by
    simp [RequestRow.isWaiting, RequestRow.isOpen, RequestRow.grant]⟩

theorem grantDispatched_closes (held : List HeldLease) (atMs : ℚ)
    (workerId workerLeaseId leaseId : Option String) :
    Closes (RequestRow.grantDispatched held atMs workerId workerLeaseId leaseId) :=
  ⟨fun _ => rfl, fun _ => rfl, fun r => by
    simp [RequestRow.isWaiting, RequestRow.isOpen, RequestRow.grantDispatched]⟩

/-- A request has one row, so closing its open row takes that row off the count. -/
theorem occurs_updateOpen {rows : List RequestRow} (hids : (rows.map RequestRow.requestId).Nodup)
    {id : String} {row : RequestRow} (hrow : findOpen rows id = some row)
    {f : RequestRow → RequestRow} (hf : Closes f) (k : Option Platform) :
    Tally.occurs (waitingPlatforms (updateOpen rows id f)) k =
      Tally.occurs (waitingPlatforms rows) k - (if row.probe = false ∧ row.platform = k then 1 else 0) := by
  have hmem : row ∈ rows := List.mem_of_find?_eq_some hrow
  have hsome := List.find?_some hrow
  simp only [Bool.and_eq_true, decide_eq_true_eq] at hsome
  obtain ⟨hid, hopen⟩ := hsome
  obtain ⟨front, back, rfl⟩ := List.append_of_mem hmem
  have hother : ∀ r ∈ front ++ back, r.requestId ≠ id := by
    intro r hr heq
    rw [List.map_append, List.map_cons] at hids
    have hperm := (List.Perm.nodup_iff List.perm_middle).mp hids
    rw [List.nodup_cons, ← List.map_append] at hperm
    exact hperm.1 (List.mem_map.mpr ⟨r, hr, heq.trans hid.symm⟩)
  have hsame : ∀ l : List RequestRow, (∀ r ∈ l, r.requestId ≠ id) →
      l.map (fun r => if r.requestId = id ∧ r.isOpen then f r else r) = l := by
    intro l hl
    conv_rhs => rw [← List.map_id l]
    exact List.map_congr_left fun r hr => if_neg fun h => hl r hr h.1
  have hupdate : updateOpen (front ++ row :: back) id f = front ++ f row :: back := by
    unfold updateOpen
    rw [List.map_append, List.map_cons, hsame front fun r hr => hother r (List.mem_append_left _ hr),
      hsame back fun r hr => hother r (List.mem_append_right _ hr), if_pos ⟨hid, hopen⟩]
  rw [hupdate, waitingPlatforms_append, waitingPlatforms_append, waitingPlatforms_cons,
    waitingPlatforms_cons, hf.closed]
  have hwaiting : row.isWaiting = !row.probe := by rw [RequestRow.isWaiting, hopen, Bool.true_and]
  rw [hwaiting]
  cases row.probe with
  | true => simp
  | false =>
    by_cases hk : row.platform = k
    · subst hk
      simp 
    · simp [hk]

theorem ids_updateOpen (rows : List RequestRow) (id : String) {f : RequestRow → RequestRow}
    (hf : Closes f) :
    (updateOpen rows id f).map RequestRow.requestId = rows.map RequestRow.requestId := by
  unfold updateOpen
  rw [List.map_map]
  refine List.map_congr_left fun r _ => ?_
  rw [Function.comp_apply]
  split
  · exact hf.requestId r
  · rfl

theorem heldPlatforms_append (held held' : List HeldLease) (w : String) :
    heldPlatforms (held ++ held') w = heldPlatforms held w ++ heldPlatforms held' w := by
  simp [heldPlatforms]

theorem heldPlatforms_cons (l : HeldLease) (held : List HeldLease) (w : String) :
    heldPlatforms (l :: held) w =
      (if l.workerId = w then [l.platform] else []) ++ heldPlatforms held w := by
  unfold heldPlatforms
  rw [List.filter_cons]
  by_cases hw : l.workerId = w <;> simp [hw]

/-- A lease has one row, so releasing it takes that row off its worker's count. -/
theorem occurs_releaseLease {held : List HeldLease}
    (hkeys : (held.map (fun l => (l.workerId, l.leaseId))).Nodup) {worker leaseId : String}
    {lease : HeldLease} (hlease : findHeld held worker leaseId = some lease) (w : String)
    (k : Option Platform) :
    Tally.occurs (heldPlatforms (releaseLease held worker leaseId) w) k =
      Tally.occurs (heldPlatforms held w) k - (if w = worker ∧ lease.platform = k then 1 else 0) := by
  have hmem : lease ∈ held := List.mem_of_find?_eq_some hlease
  obtain ⟨hworker, hid⟩ : lease.workerId = worker ∧ lease.leaseId = leaseId := by
    simpa using List.find?_some hlease
  obtain ⟨front, back, rfl⟩ := List.append_of_mem hmem
  have hother : ∀ l ∈ front ++ back, ¬ (l.workerId = worker ∧ l.leaseId = leaseId) := by
    rintro l hl ⟨h1, h2⟩
    rw [List.map_append, List.map_cons] at hkeys
    have hperm := (List.Perm.nodup_iff List.perm_middle).mp hkeys
    rw [List.nodup_cons, ← List.map_append] at hperm
    exact hperm.1 (List.mem_map.mpr ⟨l, hl, by rw [h1, h2, hworker, hid]⟩)
  have hrelease : releaseLease (front ++ lease :: back) worker leaseId = front ++ back := by
    unfold releaseLease
    rw [List.filter_append, List.filter_cons_of_neg (by simp [hworker, hid]), ← List.filter_append]
    exact List.filter_eq_self.mpr fun l hl => decide_eq_true (hother l hl)
  rw [hrelease, heldPlatforms_append, heldPlatforms_append, heldPlatforms_cons, hworker]
  by_cases hw : worker = w
  · subst hw
    by_cases hk : lease.platform = k
    · subst hk
      simp 
    · simp [hk]
  · simp [hw, Ne.symm hw]

/-! ### What one change keeps -/

theorem Twin.board (h : Twin t p q) {b b' : Board} (hsame : b.Same b')
    (hsince : b.Since (minuteOf t)) :
    Twin t { p with board := b } { q with board := b' } := by
  obtain ⟨⟨h1, h2, h3, h4, h5, -, h7, h8, h9, s1, s2, s3, s4, -⟩, hl, hr⟩ := h
  exact ⟨⟨h1, h2, h3, h4, h5, hsame, h7, h8, h9, s1, s2, s3, s4, hsince⟩, ⟨hl.1, hl.2⟩,
    ⟨hr.1, hr.2⟩⟩

/-- The request rows change, and each tally with them. -/
theorem Twin.requests (h : Twin t p q) {rows : List RequestRow}
    (hids : (rows.map RequestRow.requestId).Nodup) (hsince : ∀ r ∈ rows, t ≤ r.requestedAt)
    {counts counts' : Tally (Option Platform)} (hcounts : counts.Counts (waitingPlatforms rows))
    (hcounts' : counts'.Counts (waitingPlatforms rows)) :
    Twin t { p with requests := rows, waiting := counts }
      { q with requests := rows, waiting := counts' } := by
  obtain ⟨⟨h1, -, h3, h4, h5, h6, h7, -, h9, -, s2, s3, s4, s5⟩, hl, hr⟩ := h
  exact ⟨⟨h1, rfl, h3, h4, h5, h6, h7, hids, h9, hsince, s2, s3, s4, s5⟩, ⟨hcounts, hl.2⟩,
    ⟨hcounts', hr.2⟩⟩

theorem Twin.mapRequests (h : Twin t p q) {f : RequestRow → RequestRow} (hf : Quiet f) :
    Twin t { p with requests := p.requests.map f } { q with requests := q.requests.map f } := by
  have hids : ((p.requests.map f).map RequestRow.requestId).Nodup := by
    rw [List.map_map]
    have hsame : RequestRow.requestId ∘ f = RequestRow.requestId := funext hf.requestId
    rw [hsame]
    exact h.alike.ids
  have hsince : ∀ r ∈ p.requests.map f, t ≤ r.requestedAt := by
    intro r hr
    obtain ⟨r', hr', rfl⟩ := List.mem_map.mp hr
    rw [hf.requestedAt]
    exact h.alike.since.requests r' hr'
  have hcounts : p.waiting.Counts (waitingPlatforms (p.requests.map f)) := by
    rw [hf.waitingPlatforms]
    exact h.left.waiting
  have hcounts' : q.waiting.Counts (waitingPlatforms (p.requests.map f)) := by
    rw [hf.waitingPlatforms, ← h.alike.requests]
    exact h.right.waiting
  rw [h.alike.requests]
  exact h.requests hids hsince hcounts hcounts'

/-- The request rows change, and the count of one platform with them. -/
theorem Twin.bumpWaiting (h : Twin t p q) (ht : t ≤ atMs) {rows : List RequestRow}
    (hids : (rows.map RequestRow.requestId).Nodup) (hsince : ∀ r ∈ rows, t ≤ r.requestedAt)
    {platform : Option Platform} {next : Nat} (hnext : Tally.occurs (waitingPlatforms rows) platform = next)
    (hother : ∀ k, k ≠ platform →
      Tally.occurs (waitingPlatforms rows) k = Tally.occurs (waitingPlatforms p.requests) k) :
    Twin t ({ p with requests := rows }.bumpWaiting platform next atMs)
      ({ q with requests := rows }.bumpWaiting platform next atMs) := by
  have hcounts := h.left.waiting.set hnext hother
  have hcounts' := (h.alike.counted h.right).1.set hnext hother
  refine (h.requests hids hsince hcounts hcounts').board ?_ ?_
  · change Board.Same _ (q.board.publishCounts q.fleet _ _ _ _ _)
    rw [h.alike.fleet]
    exact h.alike.board.publishCounts p.fleet hcounts hcounts' .waiting .own atMs (.refl _)
  · exact h.alike.since.board.publishCounts p.fleet _ _ _ _ (KeyMinutes.minuteOf_mono ht)

/-- The lease rows change, and the count of one worker's platform with them. -/
theorem Twin.bumpHeld (h : Twin t p q) (ht : t ≤ atMs) {leases : List HeldLease}
    (hkeys : (leases.map (fun l => (l.workerId, l.leaseId))).Nodup)
    (hsince : ∀ l ∈ leases, t ≤ l.heldAt) {platform : Option Platform} {next : Nat}
    (origin : Origin) (hnext : Tally.occurs (heldPlatforms leases origin.worker) platform = next)
    (hother : ∀ w k, w ≠ origin.worker ∨ k ≠ platform →
      Tally.occurs (heldPlatforms leases w) k = Tally.occurs (heldPlatforms p.heldLeases w) k) :
    Twin t ({ p with heldLeases := leases }.bumpHeld platform next origin atMs)
      ({ q with heldLeases := leases }.bumpHeld platform next origin atMs) := by
  have hset : ∀ {r : Tally (Option Platform)}, r.Counts (heldPlatforms p.heldLeases origin.worker) →
      (r.set platform next).Counts (heldPlatforms leases origin.worker) :=
    fun hr => hr.set hnext fun k hk => hother _ k (.inr hk)
  have hcounts := hset (h.left.held origin.worker)
  have hcounted := h.alike.counted h.right
  have hcounts' := hset (hcounted.2 origin.worker)
  have hall : ∀ {held : String → Tally (Option Platform)},
      (∀ w, (held w).Counts (heldPlatforms p.heldLeases w)) → ∀ w,
        (Function.update held origin.worker ((held origin.worker).set platform next) w).Counts
          (heldPlatforms leases w) := by
    intro held hheld w
    by_cases hw : w = origin.worker
    · subst hw
      rw [Function.update_self]
      exact hset (hheld _)
    · rw [Function.update_of_ne hw]
      exact (hheld w).congr fun k => hother w k (.inl hw)
  obtain ⟨⟨h1, h2, -, h4, h5, h6, h7, h8, -, s1, -, s3, s4, s5⟩, hl, hr⟩ := h
  refine ⟨⟨h1, h2, rfl, h4, h5, ?_, h7, h8, hkeys, s1, hsince, s3, s4, ?_⟩, ⟨hl.1, hall hl.2⟩,
    ⟨hr.1, hall hcounted.2⟩⟩
  · change Board.Same _ (q.board.publishCounts q.fleet _ _ _ _ _)
    rw [h1]
    exact h6.publishCounts p.fleet hcounts hcounts' .leasesHeld origin atMs (.refl _)
  · exact s5.publishCounts p.fleet _ _ _ _ (KeyMinutes.minuteOf_mono ht)

theorem Twin.fact (h : Twin t p q) (ht : t ≤ atMs) (kind : EventName) (durationMs : Option ℚ)
    (platform : Option Platform) (workerId deviceId : Option String) :
    Twin t (p.fact atMs kind durationMs platform workerId deviceId)
      (q.fact atMs kind durationMs platform workerId deviceId) := by
  obtain ⟨⟨h1, h2, h3, h4, h5, h6, h7, h8, h9, s1, s2, s3, s4, s5⟩, hl, hr⟩ := h
  refine ⟨⟨h1, h2, h3, h4, ?_, h6, h7, h8, h9, s1, s2, s3, fun f hf => ?_, s5⟩, ⟨hl.1, hl.2⟩,
    ⟨hr.1, hr.2⟩⟩
  · simp only [Projector.fact, h5]
  · rcases List.mem_append.mp hf with hold | hnew
    · exact s4 f hold
    · rw [List.mem_singleton.mp hnew]
      exact ht

theorem Since.gaps_gap (h : Since t p) (ht : t ≤ atMs) (workerId : Option String) :
    ∀ g ∈ (p.gap atMs workerId).gaps, t ≤ g.gapAt := by
  intro g hg
  simp only [Projector.gap] at hg
  split at hg
  · obtain ⟨g', hg', rfl⟩ := List.mem_map.mp hg
    split <;> exact h.gaps g' hg'
  · rcases List.mem_append.mp hg with hold | hnew
    · exact h.gaps g hold
    · rw [List.mem_singleton.mp hnew]
      exact ht

theorem Alike.gap (h : Alike t p q) (ht : t ≤ atMs) (workerId : Option String) :
    Alike t (p.gap atMs workerId) (q.gap atMs workerId) := by
  have hsince := h.since.gaps_gap ht workerId
  obtain ⟨h1, h2, h3, h4, h5, h6, h7, h8, h9, s1, s2, -, s4, s5⟩ := h
  refine ⟨h1, h2, h3, ?_, h5, h6, h7, h8, h9, s1, s2, hsince, s4, s5⟩
  simp only [Projector.gap, h4]

theorem Twin.gap (h : Twin t p q) (ht : t ≤ atMs) (workerId : Option String) :
    Twin t (p.gap atMs workerId) (q.gap atMs workerId) :=
  ⟨h.alike.gap ht workerId, ⟨h.left.1, h.left.2⟩, ⟨h.right.1, h.right.2⟩⟩

theorem Twin.level (h : Twin t p q) (ht : t ≤ atMs) (origin : Origin) (platform : RowPlatform)
    (value : UsageValue) (level : Option ℚ) :
    Twin t (p.level origin platform value level atMs) (q.level origin platform value level atMs) := by
  cases level with
  | none => exact h
  | some level =>
    refine h.board ?_ (h.alike.since.board.level p.fleet origin platform value level
      (KeyMinutes.minuteOf_mono ht))
    rw [h.alike.fleet]
    exact h.alike.board.level p.fleet origin platform value level atMs

/-! ### The routes -/

theorem Twin.settle (h : Twin t p q) (ht : t ≤ atMs) (requestId : String)
    {outcome : RequestRow → RequestRow} (hcloses : Closes outcome) :
    Twin t (p.settle requestId outcome atMs) (q.settle requestId outcome atMs) := by
  have hfind : findOpen q.requests requestId = findOpen p.requests requestId := by
    rw [h.alike.requests]
  unfold Projector.settle
  rw [hfind]
  cases hrow : findOpen p.requests requestId with
  | none => exact h
  | some row =>
    have hids : ((updateOpen p.requests requestId outcome).map RequestRow.requestId).Nodup := by
      rw [ids_updateOpen _ _ hcloses]
      exact h.alike.ids
    have hsince : ∀ r ∈ updateOpen p.requests requestId outcome, t ≤ r.requestedAt := by
      intro r hr
      obtain ⟨r', hr', rfl⟩ := List.mem_map.mp hr
      split
      · rw [hcloses.requestedAt]
        exact h.alike.since.requests r' hr'
      · exact h.alike.since.requests r' hr'
    have hcount := occurs_updateOpen h.alike.ids hrow hcloses
    have hcounted := h.alike.counted h.right
    dsimp only
    rw [h.alike.requests]
    cases hprobe : row.probe with
    | true =>
      have hsame : ∀ k, Tally.occurs (waitingPlatforms (updateOpen p.requests requestId outcome)) k =
          Tally.occurs (waitingPlatforms p.requests) k := fun k => by rw [hcount, hprobe]; simp
      exact h.requests hids hsince (h.left.waiting.congr hsame) (hcounted.1.congr hsame)
    | false =>
      rw [if_neg (by decide), if_neg (by decide), hcounted.1.get, h.left.waiting.get]
      refine h.bumpWaiting ht hids hsince ?_ fun k hk => ?_
      · rw [hcount, hprobe]
        simp
      · rw [hcount, if_neg fun hand => hk hand.2.symm]
        rfl

theorem Twin.hold (h : Twin t p q) (ht : t ≤ atMs) {lease : HeldLease} (hlease : t ≤ lease.heldAt)
    {origin : Origin} (hworker : lease.workerId = origin.worker) :
    Twin t (p.hold lease origin atMs) (q.hold lease origin atMs) := by
  have hfindq : findHeld q.heldLeases lease.workerId lease.leaseId =
      findHeld p.heldLeases lease.workerId lease.leaseId := by rw [h.alike.heldLeases]
  unfold Projector.hold
  rw [hfindq]
  cases hfind : findHeld p.heldLeases lease.workerId lease.leaseId with
  | some old =>
    have hp : { p with heldLeases := holdLease p.heldLeases lease } = p := by
      rw [holdLease, hfind]
      rfl
    have hq : { q with heldLeases := holdLease q.heldLeases lease } = q := by
      rw [holdLease, hfindq, hfind]
      rfl
    dsimp only
    rw [hp, hq]
    exact h
  | none =>
    have hnew : holdLease p.heldLeases lease = p.heldLeases ++ [lease] := by simp [holdLease, hfind]
    have hcounted := h.alike.counted h.right
    dsimp only
    rw [h.alike.heldLeases, hnew, Option.isNone_none, if_pos rfl, if_pos rfl, (hcounted.2 _).get, (h.left.held _).get]
    refine h.bumpHeld ht ?_ ?_ origin ?_ ?_
    · rw [List.map_append]
      refine List.nodup_append.mpr ⟨h.alike.leases, List.nodup_singleton _, fun x hx y hy => ?_⟩
      rw [List.map_singleton] at hy
      rw [List.mem_singleton.mp hy]
      rintro rfl
      obtain ⟨l, hl, heq⟩ := List.mem_map.mp hx
      have hnot := List.find?_eq_none.mp hfind l hl
      rw [Prod.mk.injEq] at heq
      exact hnot (by simpa using heq)
    · intro l hl
      rcases List.mem_append.mp hl with hold | hnew
      · exact h.alike.since.heldLeases l hold
      · rw [List.mem_singleton.mp hnew]
        exact hlease
    · rw [heldPlatforms_append, heldPlatforms_cons, if_pos hworker]
      simp [heldPlatforms]
    · intro w k hor
      rw [heldPlatforms_append, heldPlatforms_cons, Tally.occurs_append]
      by_cases hw : lease.workerId = w
      · have hk : lease.platform ≠ k := by
          rcases hor with hne | hne
          · exact absurd (hw.symm.trans hworker) hne
          · exact hne.symm
        simp [heldPlatforms, hw, hk]
      · simp [heldPlatforms, hw]

theorem Twin.unhold (h : Twin t p q) (ht : t ≤ atMs) (leaseId : String) (origin : Origin) :
    Twin t (p.unhold leaseId origin atMs) (q.unhold leaseId origin atMs) := by
  unfold Projector.unhold
  rw [h.alike.heldLeases]
  cases hfind : findHeld p.heldLeases origin.worker leaseId with
  | none => exact h
  | some lease =>
    have hcount := occurs_releaseLease h.alike.leases hfind
    have hcounted := h.alike.counted h.right
    dsimp only
    rw [(hcounted.2 _).get, (h.left.held _).get]
    refine h.bumpHeld ht ?_ ?_ origin ?_ ?_
    · exact h.alike.leases.sublist (List.filter_sublist.map _)
    · exact fun l hl => h.alike.since.heldLeases l (List.mem_of_mem_filter hl)
    · rw [hcount]
      simp
    · intro w k hor
      rw [hcount, if_neg]
      · rfl
      · rintro ⟨rfl, rfl⟩
        simp at hor

theorem Twin.requested (h : Twin t p q) (ht : t ≤ atMs) (payload : Payload) :
    Twin t (p.requested payload atMs) (q.requested payload atMs) := by
  unfold Projector.requested
  cases text (payload.field "requestId") with
  | none => exact h
  | some requestId =>
    dsimp only
    generalize hrow : newRequest requestId ((text (payload.field "requester")).getD "")
      (specOf (payload.field "requestSpec")).platform (specOf (payload.field "requestSpec")).model
      atMs (text (payload.field "fleetRequestId")).isSome = row
    have hexistsq : requestExists q.requests requestId = requestExists p.requests requestId := by
      rw [h.alike.requests]
    have hid : row.requestId = requestId := by rw [← hrow]; rfl
    rw [hexistsq]
    cases hexists : requestExists p.requests requestId with
    | true =>
      have hp : { p with requests := insertRow p.requests row } = p := by
        rw [insertRow, hid, hexists]
        rfl
      have hq : { q with requests := insertRow q.requests row } = q := by
        rw [insertRow, hid, hexistsq, hexists]
        rfl
      rw [hp, hq]
      exact h
    | false =>
      have hinsert : insertRow p.requests row = p.requests ++ [row] := by
        rw [insertRow, hid, hexists]
        rfl
      have hids : ((p.requests ++ [row]).map RequestRow.requestId).Nodup := by
        rw [List.map_append]
        refine List.nodup_append.mpr ⟨h.alike.ids, List.nodup_singleton _, fun x hx y hy => ?_⟩
        rw [List.map_singleton, hid] at hy
        rw [List.mem_singleton.mp hy]
        rintro rfl
        obtain ⟨r, hr, heq⟩ := List.mem_map.mp hx
        have hnot := List.any_eq_false.mp hexists r hr
        exact hnot (by simpa using heq)
      have hsince : ∀ r ∈ p.requests ++ [row], t ≤ r.requestedAt := by
        intro r hr
        rcases List.mem_append.mp hr with hold | hnew
        · exact h.alike.since.requests r hold
        · rw [List.mem_singleton.mp hnew, ← hrow]
          exact ht
      have hone : waitingPlatforms [row] = if (text (payload.field "fleetRequestId")).isSome then []
          else [(specOf (payload.field "requestSpec")).platform] := by
        rw [← hrow, waitingPlatforms_cons]
        cases (text (payload.field "fleetRequestId")).isSome <;> rfl
      have hcounted := h.alike.counted h.right
      rw [h.alike.requests, hinsert]
      cases hprobe : (text (payload.field "fleetRequestId")).isSome with
      | true =>
        rw [hprobe, if_pos rfl] at hone
        have hsame : waitingPlatforms (p.requests ++ [row]) = waitingPlatforms p.requests := by
          rw [waitingPlatforms_append, hone, List.append_nil]
        have hcounts := h.left.waiting
        have hcounts' := hcounted.1
        rw [← hsame] at hcounts hcounts'
        exact h.requests hids hsince hcounts hcounts'
      | false =>
        rw [hprobe, if_neg (by decide)] at hone
        simp only [Bool.not_false, Bool.and_self, if_true]
        rw [hcounted.1.get, h.left.waiting.get]
        refine h.bumpWaiting ht hids hsince ?_ fun k hk => ?_
        · rw [waitingPlatforms_append, hone]
          simp
        · rw [waitingPlatforms_append, hone, Tally.occurs_append, Tally.occurs_cons,
            if_neg (Ne.symm hk)]
          rfl

/-- A request that is refused as it comes never waits. -/
theorem Twin.refused (h : Twin t p q) {row : RequestRow} (hrow : t ≤ row.requestedAt)
    (hwaits : row.isWaiting = false) (hnew : requestExists p.requests row.requestId = false) :
    Twin t { p with requests := insertRow p.requests row }
      { q with requests := insertRow q.requests row } := by
  have hinsert : insertRow p.requests row = p.requests ++ [row] := by
    rw [insertRow, hnew]
    rfl
  have hsame : waitingPlatforms (p.requests ++ [row]) = waitingPlatforms p.requests := by
    rw [waitingPlatforms_append, waitingPlatforms_cons, hwaits]
    exact List.append_nil _
  have hcounts := h.left.waiting
  have hcounts' := (h.alike.counted h.right).1
  rw [← hsame] at hcounts hcounts'
  rw [h.alike.requests, hinsert]
  refine h.requests ?_ (fun r hr => ?_) hcounts hcounts'
  · rw [List.map_append]
    refine List.nodup_append.mpr ⟨h.alike.ids, List.nodup_singleton _, fun x hx y hy => ?_⟩
    rw [List.map_singleton] at hy
    rw [List.mem_singleton.mp hy]
    rintro rfl
    obtain ⟨r, hr, heq⟩ := List.mem_map.mp hx
    have hnot := List.any_eq_false.mp hnew r hr
    exact hnot (by simpa using heq)
  · rcases List.mem_append.mp hr with hold | hlast
    · exact h.alike.since.requests r hold
    · rw [List.mem_singleton.mp hlast]
      exact hrow

theorem Twin.rejected (h : Twin t p q) (ht : t ≤ atMs) (payload : Payload) :
    Twin t (p.rejected payload atMs) (q.rejected payload atMs) := by
  unfold Projector.rejected
  cases text (payload.field "requestId") with
  | none => exact h
  | some requestId =>
    have hexistsq : requestExists q.requests requestId = requestExists p.requests requestId := by
      rw [h.alike.requests]
    dsimp only
    rw [hexistsq]
    cases hexists : requestExists p.requests requestId with
    | true => exact h.settle ht requestId (reject_closes _ _ _ _)
    | false => exact h.refused ht (by simp [RequestRow.isWaiting, RequestRow.isOpen]) hexists

theorem Twin.declined (h : Twin t p q) (ht : t ≤ atMs) (payload : Payload) (origin : Origin) :
    Twin t (p.declined payload origin atMs) (q.declined payload origin atMs) := by
  unfold Projector.declined
  cases text (payload.field "requestId") with
  | none => exact h
  | some requestId =>
    dsimp only
    split
    · exact h.fact ht _ _ _ _ _
    · exact (h.settle ht requestId (reject_closes _ _ _ _)).fact ht _ _ _ _ _

theorem Twin.dispatched (h : Twin t p q) (ht : t ≤ atMs) (payload : Payload) :
    Twin t (p.dispatched payload atMs) (q.dispatched payload atMs) := by
  unfold Projector.dispatched
  rw [h.alike.heldLeases]
  cases text (payload.field "requestId") with
  | none => exact h
  | some requestId => exact h.settle ht requestId (grantDispatched_closes _ _ _ _ _)

theorem attachSource_quiet (workerId leaseId : String) (source : LeaseSource) :
    Quiet (fun r => if r.workerId = some workerId ∧ r.workerLeaseId = some leaseId ∧
      r.source = none ∧ r.grantedAt ≠ none then { r with source := some source } else r) := by
  refine ⟨fun r => ?_, fun r => ?_, fun r => ?_, fun r => ?_⟩ <;> split <;> rfl

theorem endByWorkerLease_quiet (workerId leaseId : String) (atMs : ℚ)
    (endReason : Option EndReason) (heldFrom : Option ℚ) :
    Quiet (fun r => if r.workerId = some workerId ∧ r.workerLeaseId = some leaseId ∧
      r.endedAt = none then
        { r with
          endedAt := some atMs
          endReason := endReason
          heldMs := heldFrom.map (fun since => max 0 (atMs - since)) }
      else r) := by
  refine ⟨fun r => ?_, fun r => ?_, fun r => ?_, fun r => ?_⟩ <;> split <;> rfl

theorem endByLease_quiet (leaseId : String) (atMs : ℚ) (endReason : Option EndReason) :
    Quiet (fun r =>
      match r.grantedAt with
      | some grantedAt =>
        if r.leaseId = some leaseId ∧ r.endedAt = none then
          { r with
            endedAt := some atMs
            endReason := endReason
            heldMs := some (max 0 (atMs - grantedAt)) }
        else r
      | none => r) := by
  refine ⟨fun r => ?_, fun r => ?_, fun r => ?_, fun r => ?_⟩ <;> split <;>
    first | rfl | (split <;> rfl)

end

/-! ### The events that publish a whole tally -/

namespace Projector

variable (p : Projector)

/-- The tally that `touch` publishes for every platform: of a worker the run has not heard of yet. -/
def touched (origin : Origin) : List (Tally (Option Platform)) :=
  if !origin.relayed || decide (origin.worker ∈ p.board.connected) then []
  else [p.held origin.worker]

/-- The tallies that a route publishes for every platform they hold. -/
def publishedBy (event : EventName) (payload : Payload) (origin : Origin) :
    List (Tally (Option Platform)) :=
  if !p.routed event origin then []
  else
    match event with
    | .daemonStarted => if p.fleet then [] else [p.waiting, p.held ""]
    | .leaseGranted | .leaseReleased | .leaseExpired =>
      if (text (payload.field "leaseId")).isNone then [] else p.touched origin
    | .capacityChanged => p.touched origin
    | .queueChanged => if (amount (payload.field "depth")).isNone then [] else p.touched origin
    | _ => []

/-- The tallies that an event makes the projector publish for every platform they hold. -/
def published (e : EventEnvelope) : List (Tally (Option Platform)) :=
  match amountOf e.timestamp, p.originOf (payloadOf e.payload) with
  | some _, some origin => p.load.publishedBy e.event (payloadOf e.payload) origin
  | _, _ => []

end Projector

/-- The tallies two projectors publish hold the same platforms. -/
def PublishAlike (ps qs : List (Tally (Option Platform))) : Prop := List.Forall₂ Tally.SameKeys ps qs

instance (ps qs : List (Tally (Option Platform))) : Decidable (PublishAlike ps qs) :=
  inferInstanceAs (Decidable (List.Forall₂ Tally.SameKeys ps qs))

section
variable {t atMs : ℚ} {p q : Projector}

theorem Twin.touch (h : Twin t p q) (ht : t ≤ atMs) {origin : Origin}
    (hkeys : PublishAlike (p.touched origin) (q.touched origin)) :
    Twin t (p.touch origin atMs) (q.touch origin atMs) := by
  have hconnected := h.alike.board.connected
  unfold PublishAlike Projector.touched at hkeys
  unfold Projector.touch
  by_cases hseen : (!origin.relayed || decide (origin.worker ∈ p.board.connected)) = true
  · rw [if_pos hseen, if_pos (by rw [hconnected]; exact hseen)]
    exact h
  · have hseenq : ¬ (!origin.relayed || decide (origin.worker ∈ q.board.connected)) = true := by
      rw [hconnected]
      exact hseen
    rw [if_neg hseen, if_neg hseenq, List.forall₂_cons] at hkeys
    rw [if_neg hseen, if_neg hseenq]
    have hcounted := (h.alike.counted h.right).2 origin.worker
    have hperm := hkeys.1.perm (h.left.held origin.worker) hcounted
    have hconnect := h.alike.board.connect origin.worker
    have hsince : Board.Since (minuteOf t)
        { p.board with connected := p.board.connected ++ [origin.worker] } := h.alike.since.board
    have hempty : (q.held origin.worker).keys.isEmpty = (p.held origin.worker).keys.isEmpty := by
      rw [Bool.eq_iff_iff, List.isEmpty_iff, List.isEmpty_iff, ← List.length_eq_zero_iff,
        ← List.length_eq_zero_iff, hperm.length_eq]
    dsimp only
    rw [hempty]
    split
    · exact h.board hconnect hsince
    · refine h.board ?_ (hsince.publishCounts p.fleet _ _ _ _ (KeyMinutes.minuteOf_mono ht))
      rw [h.alike.fleet]
      exact hconnect.publishCounts p.fleet (h.left.held _) hcounted .leasesHeld origin atMs hperm

theorem Twin.granted (h : Twin t p q) (ht : t ≤ atMs) (payload : Payload) {origin : Origin}
    (hkeys : (text (payload.field "leaseId")).isNone = false →
      PublishAlike (p.touched origin) (q.touched origin)) :
    Twin t (p.granted payload origin atMs) (q.granted payload origin atMs) := by
  have hplatform : ∀ requestId, q.grantedPlatform payload requestId origin =
      p.grantedPlatform payload requestId origin := by
    intro requestId
    unfold Projector.grantedPlatform
    rw [h.alike.requests]
  unfold Projector.granted
  cases hlease : text (payload.field "leaseId") with
  | none => exact h
  | some leaseId =>
    rw [hlease] at hkeys
    dsimp only
    rw [hplatform]
    have hheld : ∀ platform source, Twin t
        ((p.touch origin atMs).hold ⟨origin.worker, leaseId, platform, source, atMs⟩ origin atMs)
        ((q.touch origin atMs).hold ⟨origin.worker, leaseId, platform, source, atMs⟩ origin atMs) :=
      fun platform source => (h.touch ht (hkeys rfl)).hold ht ht rfl
    split
    · split
      · exact (hheld _ _).mapRequests (attachSource_quiet _ _ _)
      · exact hheld _ _
    · split
      · exact (hheld _ _).settle ht _ (grant_closes _ _ _)
      · exact hheld _ _

theorem Twin.ended (h : Twin t p q) (ht : t ≤ atMs) (expired : Bool) (payload : Payload)
    {origin : Origin} (hkeys : (text (payload.field "leaseId")).isNone = false →
      PublishAlike (p.touched origin) (q.touched origin)) :
    Twin t (p.ended expired payload origin atMs) (q.ended expired payload origin atMs) := by
  unfold Projector.ended
  cases hlease : text (payload.field "leaseId") with
  | none => exact h
  | some leaseId =>
    rw [hlease] at hkeys
    have htouched := h.touch ht (hkeys rfl)
    have hreleased := htouched.unhold ht leaseId origin
    dsimp only
    rw [htouched.alike.heldLeases]
    split
    · exact hreleased.mapRequests (endByWorkerLease_quiet _ _ _ _ _)
    · exact hreleased.mapRequests (endByLease_quiet _ _ _)

theorem Twin.capacity (h : Twin t p q) (ht : t ≤ atMs) (payload : Payload) {origin : Origin}
    (hkeys : PublishAlike (p.touched origin) (q.touched origin)) :
    Twin t (p.capacity payload origin atMs) (q.capacity payload origin atMs) := by
  have htouched := h.touch ht hkeys
  unfold Projector.capacity
  generalize p.touch origin atMs = p at htouched
  generalize q.touch origin atMs = q at htouched
  induction payload generalizing p q with
  | nil => exact htouched
  | cons entry payload ih =>
    rw [List.foldl_cons, List.foldl_cons]
    refine ih _ _ ?_
    dsimp only
    split
    · exact (htouched.level ht origin _ _ _).level ht origin _ _ _
    · unfold Projector.slots
      dsimp only
      split
      · exact htouched
      · exact (htouched.level ht origin _ _ _).level ht origin _ _ _

theorem Twin.queue (h : Twin t p q) (ht : t ≤ atMs) (payload : Payload) {origin : Origin}
    (hkeys : (amount (payload.field "depth")).isNone = false →
      PublishAlike (p.touched origin) (q.touched origin)) :
    Twin t (p.queue payload origin atMs) (q.queue payload origin atMs) := by
  unfold Projector.queue
  cases hdepth : amount (payload.field "depth") with
  | none => exact h
  | some depth =>
    rw [hdepth] at hkeys
    have htouched := h.touch ht (hkeys rfl)
    have hqueues : ∀ lines, Twin t
        { p.touch origin atMs with
          queues := Function.update (p.touch origin atMs).queues origin.worker lines }
        { q.touch origin atMs with
          queues := Function.update (q.touch origin atMs).queues origin.worker lines } := by
      intro lines
      obtain ⟨⟨h1, h2, h3, h4, h5, h6, h7, h8, h9, s1, s2, s3, s4, s5⟩, hl, hr⟩ := htouched
      refine ⟨⟨h1, h2, h3, h4, h5, h6, ?_, h8, h9, s1, s2, s3, s4, s5⟩, ⟨hl.1, hl.2⟩, ⟨hr.1, hr.2⟩⟩
      simp only [h7]
    dsimp only
    rw [htouched.alike.queues] at hqueues ⊢
    exact (hqueues _).level ht origin _ _ _

theorem Twin.stopping (h : Twin t p q) (ht : t ≤ atMs) :
    Twin t (p.stopping atMs) (q.stopping atMs) := by
  have hgap := h.gap ht none
  exact hgap.board (hgap.alike.board.cut none atMs)
    (hgap.alike.since.board.cut none (KeyMinutes.minuteOf_mono ht))

theorem Twin.publishOwn (h : Twin t p q) (ht : t ≤ atMs)
    {counts counts' : Tally (Option Platform)} {l : List (Option Platform)}
    (hcounts : counts.Counts l) (hcounts' : counts'.Counts l) (hkeys : counts.SameKeys counts')
    (value : UsageValue) :
    Twin t (p.publishOwn counts value atMs) (q.publishOwn counts' value atMs) := by
  have hperm := hkeys.perm hcounts hcounts'
  have hempty : counts'.keys.isEmpty = counts.keys.isEmpty := by
    rw [Bool.eq_iff_iff, List.isEmpty_iff, List.isEmpty_iff, ← List.length_eq_zero_iff,
      ← List.length_eq_zero_iff, hperm.length_eq]
  unfold Projector.publishOwn
  rw [hempty]
  split
  · exact h
  · refine h.board ?_ (h.alike.since.board.publishCounts p.fleet _ _ _ _
      (KeyMinutes.minuteOf_mono ht))
    rw [h.alike.fleet]
    exact h.alike.board.publishCounts p.fleet hcounts hcounts' value .own atMs hperm

theorem Alike.restart (h : Alike t p q) (atMs : ℚ) :
    Twin t (p.restart atMs) (q.restart atMs) := by
  obtain ⟨h1, h2, h3, h4, h5, h6, h7, h8, h9, s1, s2, s3, s4, s5⟩ := h
  have hids : ((rejectAllOpen p.requests atMs "daemon-restarted").map
      RequestRow.requestId).Nodup := by
    unfold rejectAllOpen
    rw [List.map_map]
    have hsame : (RequestRow.requestId ∘ fun r : RequestRow => if r.isOpen then
        { r with rejectedAt := some atMs, reason := some "daemon-restarted" } else r) =
          RequestRow.requestId := by
      funext r
      rw [Function.comp_apply]
      split <;> rfl
    rw [hsame]
    exact h8
  refine ⟨⟨h1, ?_, h3, h4, h5, h6, h7, hids, h9, fun r hr => ?_, s2, s3, s4, s5⟩,
    ⟨Tally.counts_of _, fun _ => Tally.counts_of _⟩, ⟨Tally.counts_of _, fun _ => Tally.counts_of _⟩⟩
  · change rejectAllOpen q.requests atMs _ = rejectAllOpen p.requests atMs _
    rw [h2]
  · obtain ⟨r', hr', rfl⟩ := List.mem_map.mp hr
    have hold := s1 r' hr'
    split <;> exact hold

theorem Twin.publishBoth (h : Twin t p q) (ht : t ≤ atMs)
    (hkeys : PublishAlike [p.waiting, p.held ""] [q.waiting, q.held ""]) :
    Twin t (p.publishBoth atMs) (q.publishBoth atMs) := by
  unfold PublishAlike at hkeys
  rw [List.forall₂_cons, List.forall₂_cons] at hkeys
  have hcounted := h.alike.counted h.right
  exact (h.publishOwn ht h.left.waiting hcounted.1 hkeys.1 .waiting).publishOwn ht
    (h.left.held "") (hcounted.2 "") hkeys.2.1 .leasesHeld

theorem Twin.started (h : Twin t p q) (ht : t ≤ atMs)
    (hkeys : p.fleet = false → PublishAlike [p.waiting, p.held ""] [q.waiting, q.held ""]) :
    Twin t (p.started atMs) (q.started atMs) := by
  have hclosed : Twin t ({ p with board := p.board.closeOpenRows }.gap atMs none)
      ({ q with board := q.board.closeOpenRows }.gap atMs none) :=
    (h.board h.alike.board.closeOpenRows h.alike.since.board.closeOpenRows).gap ht none
  have hkeys' : ({ p with board := p.board.closeOpenRows }.gap atMs none).fleet = false →
      PublishAlike [({ p with board := p.board.closeOpenRows }.gap atMs none).waiting,
          ({ p with board := p.board.closeOpenRows }.gap atMs none).held ""]
        [({ q with board := q.board.closeOpenRows }.gap atMs none).waiting,
          ({ q with board := q.board.closeOpenRows }.gap atMs none).held ""] := hkeys
  unfold Projector.started
  generalize { p with board := p.board.closeOpenRows }.gap atMs none = p' at *
  generalize { q with board := q.board.closeOpenRows }.gap atMs none = q' at *
  dsimp only
  rw [hclosed.alike.fleet]
  split
  · -- both read the same tables again, so they hold the same platforms
    have hrestart := hclosed.alike.restart atMs
    have hwaiting : (q'.restart atMs).waiting = (p'.restart atMs).waiting :=
      congrArg waitingByPlatform hrestart.alike.requests
    have hheld : (q'.restart atMs).held "" = (p'.restart atMs).held "" :=
      congrArg (fun held => heldByWorker held "") hrestart.alike.heldLeases
    refine hrestart.publishBoth ht ?_
    rw [hwaiting, hheld]
    exact .cons (fun _ => Iff.rfl) (.cons (fun _ => Iff.rfl) .nil)
  · rename_i hfleet
    exact hclosed.publishBoth ht (hkeys' (Bool.eq_false_iff.mpr hfleet))

theorem Alike.disconnected (h : Alike t p q) (ht : t ≤ atMs) (payload : Payload) :
    Alike t (p.disconnected payload atMs) (q.disconnected payload atMs) := by
  unfold Projector.disconnected
  cases text (payload.field "workerId") with
  | none => exact h
  | some worker =>
    have hms := KeyMinutes.minuteOf_mono ht
    have hboard := (h.board.drop worker atMs).cut (some worker) atMs
    have hsince := (h.since.board.drop worker hms).cut (some worker) hms
    obtain ⟨h1, h2, h3, h4, h5, -, h7, h8, h9, s1, s2, s3, s4, -⟩ := h
    have hdropped : Alike t
        { p with board := (p.board.drop worker atMs).cut (some worker) atMs }
        { q with board := (q.board.drop worker atMs).cut (some worker) atMs } :=
      ⟨h1, h2, h3, h4, h5, hboard, h7, h8, h9, s1, s2, s3, s4, hsince⟩
    exact hdropped.gap ht (some worker)

theorem Twin.deviceFact (h : Twin t p q) (ht : t ≤ atMs) (event : EventName)
    (durationField : Option String) (payload : Payload) (origin : Origin) :
    Twin t (p.deviceFact event durationField payload origin atMs)
      (q.deviceFact event durationField payload origin atMs) := by
  unfold Projector.deviceFact
  cases text (payload.field "deviceId") with
  | none => exact h
  | some deviceId =>
    dsimp only
    split
    · exact h
    · exact h.fact ht _ _ _ _ _

theorem Twin.route (h : Twin t p q) (ht : t ≤ atMs) (event : EventName) (payload : Payload)
    (origin : Origin)
    (hkeys : PublishAlike (p.publishedBy event payload origin) (q.publishedBy event payload origin)) :
    Twin t (p.route event payload origin atMs) (q.route event payload origin atMs) := by
  have hrouted : q.routed event origin = p.routed event origin := by
    rw [Projector.routed, Projector.routed, h.alike.fleet]
  unfold Projector.route
  unfold Projector.publishedBy at hkeys
  rw [hrouted] at hkeys ⊢
  split
  · exact h
  · rename_i hroute
    rw [if_neg hroute, if_neg hroute] at hkeys
    have hif : ∀ {c : Bool} {a b : List (Tally (Option Platform))},
        PublishAlike (if c then [] else a) (if c then [] else b) → c = false → PublishAlike a b := by
      rintro c a b halike rfl
      exact halike
    cases event with
    | leaseRequested => exact h.requested ht payload
    | leaseRejected => exact h.rejected ht payload
    | leaseDeclined => exact h.declined ht payload origin
    | requestGranted => exact h.dispatched ht payload
    | leaseGranted => exact h.granted ht payload (hif hkeys)
    | leaseReleased => exact h.ended ht false payload (hif hkeys)
    | leaseExpired => exact h.ended ht true payload (hif hkeys)
    | capacityChanged => exact h.capacity ht payload hkeys
    | queueChanged => exact h.queue ht payload (hif hkeys)
    | daemonStopping => exact h.stopping ht
    | daemonStarted =>
      refine h.started ht fun hfleet => ?_
      rw [h.alike.fleet] at hkeys
      exact hif hkeys hfleet
    | _ => exact h

end

end Simlock.History
