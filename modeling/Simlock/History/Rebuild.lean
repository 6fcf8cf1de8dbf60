import Simlock.History.Twins
import Simlock.Lib.Run

/-! Rebuilding the usage tables from the stored events.

    Live, every daemon run projects its events with a projector of its own, and prunes now and then.
    A rebuild empties the tables and applies all stored events in one projector, which crosses the
    runs where `seq` does not rise. The two agree as long as the counts the rebuild has carried over
    a run hold the same platforms as those the live run read from its tables. -/

namespace Simlock.History

open Core (Platform Json Payload payloadOf)
open Lib (Tally)

/-- What happens to the projector of a daemon: a new process opens the tables, an event is stored
    and projected, the history is pruned. -/
inductive LiveAction where
  | boot
  | event (e : EventEnvelope)
  | prune (now : ℚ)

def Projector.liveStep (p : Projector) : LiveAction → Projector
  | .boot => p.boot
  | .event e => p.apply e
  | .prune now => p.prune now

/-- The stored events. -/
def storedEvents (acts : List LiveAction) : List EventEnvelope :=
  acts.filterMap (fun a => match a with | .event e => some e | _ => none)

/-- `SELECT MIN(timestamp) FROM events`. -/
def oldestEventAt (events : List EventEnvelope) : Option ℚ :=
  (events.map EventEnvelope.timestamp).min?

/-- `rebuildProjections`: the tables are emptied and every stored event is applied. -/
def Projector.rebuilt (p : Projector) (events : List EventEnvelope) : Projector :=
  events.foldl Projector.apply (p.rebuild (oldestEventAt events))

/-- The same rows in the five tables. -/
structure SameTables (p q : Projector) : Prop where
  requests : q.requests = p.requests
  heldLeases : q.heldLeases = p.heldLeases
  gaps : q.gaps = p.gaps
  facts : q.facts = p.facts
  minutes : ∀ w pl, (q.board.minutes w pl).rows = (p.board.minutes w pl).rows

/-! ### The live projector and the replay, event by event -/

/-- The live projector, and the one that replays all events so far on empty tables. -/
structure Replay where
  live : Projector
  replayed : Projector

namespace Replay

def create (options : HistoryProjectionOptions) : Replay where
  live := .create options
  replayed := .create options

def step (s : Replay) : LiveAction → Replay
  | .event e => { live := s.live.apply e, replayed := s.replayed.apply e }
  | a => { s with live := s.live.liveStep a }

/-- What a rebuild counts on: a pruning finds no old row, the first event of a run does not rise over
    the last `seq` of the run before, and an event that publishes the counts of every platform finds
    the same platforms in the counts read live and in those carried by the replay. -/
def Careful (s : Replay) : LiveAction → Prop
  | .boot => True
  | .prune now => SameTables s.live (s.live.prune now)
  | .event e =>
    (s.live.lastSeq = none → ∀ last ∈ s.replayed.lastSeq, e.seq ≤ last) ∧
      PublishAlike ((s.live.enter e).published e) ((s.replayed.enter e).published e)

end Replay

section
variable {t : ℚ} {p q : Projector}

/-- What the tallies of a projector say, once they are read. -/
def Reads (p : Projector) : Prop := p.loaded = true → Counted p

/-- Alike but for the place in the run. -/
structure Settled (t : ℚ) (p q : Projector) : Prop where
  alike : Alike t p q
  left : Reads p
  right : Reads q

theorem Twin.settled (h : Twin t p q) : Settled t p q := ⟨h.alike, fun _ => h.left, fun _ => h.right⟩

theorem Reads.load (h : Reads p) : Counted p.load := by
  unfold Projector.load
  split
  · rename_i hloaded
    exact h hloaded
  · exact ⟨Tally.counts_of _, fun _ => Tally.counts_of _⟩

theorem Settled.load (h : Settled t p q) : Twin t p.load q.load := by
  refine ⟨?_, h.left.load, h.right.load⟩
  obtain ⟨h1, h2, h3, h4, h5, h6, h7, h8, h9, s1, s2, s3, s4, s5⟩ := h.alike
  unfold Projector.load
  split <;> split <;> exact ⟨h1, h2, h3, h4, h5, h6, h7, h8, h9, s1, s2, s3, s4, s5⟩

theorem disconnected_reads (h : Reads p) (payload : Payload) (atMs : ℚ) :
    Reads (p.disconnected payload atMs) := by
  unfold Projector.disconnected
  split
  · exact h
  · exact fun hloaded => ⟨(h hloaded).waiting, (h hloaded).held⟩

theorem Settled.project (h : Settled t p q) {e : EventEnvelope} (ht : t ≤ e.timestamp)
    (hkeys : PublishAlike (p.published e) (q.published e)) :
    Settled t (p.project e) (q.project e) := by
  have horigin : q.originOf (payloadOf e.payload) = p.originOf (payloadOf e.payload) := by
    rw [Projector.originOf, Projector.originOf, h.alike.fleet]
  unfold Projector.project
  unfold Projector.published at hkeys
  rw [horigin] at hkeys
  cases hat : amountOf e.timestamp with
  | none => exact h
  | some atMs =>
    have hatMs : atMs = e.timestamp := by
      unfold amountOf at hat
      split at hat
      · cases hat
      · split at hat
        · exact (Option.some.inj hat).symm
        · cases hat
    have htime : t ≤ atMs := hatMs ▸ ht
    rw [hat] at hkeys
    dsimp only
    split
    · rw [h.alike.fleet]
      split
      · exact ⟨h.alike.disconnected htime _, disconnected_reads h.left _ _,
          disconnected_reads h.right _ _⟩
      · exact h
    · rw [horigin]
      cases horigin' : p.originOf (payloadOf e.payload) with
      | none => exact h
      | some origin =>
        rw [horigin'] at hkeys
        dsimp only
        split
        · exact (h.load.deviceFact htime _ _ _ _).settled
        · exact (h.load.route htime _ _ _ hkeys).settled

end

/-! ### What no event changes -/

/-- The options, and the place in the run that `enter` set. -/
structure Stands (p p' : Projector) : Prop where
  options : p'.options = p.options
  lastSeq : p'.lastSeq = p.lastSeq

theorem Stands.refl (p : Projector) : Stands p p := ⟨rfl, rfl⟩

theorem Stands.trans {p p' p'' : Projector} (h : Stands p p') (k : Stands p' p'') : Stands p p'' :=
  ⟨k.options.trans h.options, k.lastSeq.trans h.lastSeq⟩

section
variable (p : Projector) (payload : Payload) (origin : Origin) (atMs : ℚ)

theorem load_stands : Stands p p.load := by
  unfold Projector.load
  split <;> exact ⟨rfl, rfl⟩

theorem settle_stands (requestId : String) (outcome : RequestRow → RequestRow) :
    Stands p (p.settle requestId outcome atMs) := by
  unfold Projector.settle
  split
  · exact .refl p
  · dsimp only
    split <;> exact ⟨rfl, rfl⟩

theorem touch_stands : Stands p (p.touch origin atMs) := by
  unfold Projector.touch
  split <;> exact ⟨rfl, rfl⟩

theorem hold_stands (lease : HeldLease) : Stands p (p.hold lease origin atMs) := by
  unfold Projector.hold
  dsimp only
  split <;> exact ⟨rfl, rfl⟩

theorem unhold_stands (leaseId : String) : Stands p (p.unhold leaseId origin atMs) := by
  unfold Projector.unhold
  split <;> exact ⟨rfl, rfl⟩

theorem level_stands (platform : RowPlatform) (value : UsageValue) (level : Option ℚ) :
    Stands p (p.level origin platform value level atMs) := by
  unfold Projector.level
  split <;> exact ⟨rfl, rfl⟩

theorem publishOwn_stands (counts : Tally (Option Platform)) (value : UsageValue) :
    Stands p (p.publishOwn counts value atMs) := by
  unfold Projector.publishOwn
  split <;> exact ⟨rfl, rfl⟩

theorem requested_stands : Stands p (p.requested payload atMs) := by
  unfold Projector.requested
  split
  · exact .refl p
  · dsimp only
    split <;> exact ⟨rfl, rfl⟩

theorem rejected_stands : Stands p (p.rejected payload atMs) := by
  unfold Projector.rejected
  split
  · exact .refl p
  · dsimp only
    split
    · exact ⟨rfl, rfl⟩
    · exact settle_stands p atMs _ _

theorem declined_stands : Stands p (p.declined payload origin atMs) := by
  unfold Projector.declined
  split
  · exact .refl p
  · dsimp only
    split
    · exact ⟨rfl, rfl⟩
    · exact (settle_stands p atMs _ _).trans ⟨rfl, rfl⟩

theorem dispatched_stands : Stands p (p.dispatched payload atMs) := by
  unfold Projector.dispatched
  split
  · exact .refl p
  · exact settle_stands p atMs _ _

theorem granted_stands : Stands p (p.granted payload origin atMs) := by
  unfold Projector.granted
  split
  · exact .refl p
  · have hheld := fun lease => (touch_stands p origin atMs).trans (hold_stands _ origin atMs lease)
    dsimp only
    split
    · split
      · exact (hheld _).trans ⟨rfl, rfl⟩
      · exact hheld _
    · split
      · exact (hheld _).trans (settle_stands _ atMs _ _)
      · exact hheld _

theorem ended_stands (expired : Bool) : Stands p (p.ended expired payload origin atMs) := by
  unfold Projector.ended
  split
  · exact .refl p
  · have hreleased := fun id => (touch_stands p origin atMs).trans (unhold_stands _ origin atMs id)
    dsimp only
    split
    · exact (hreleased _).trans ⟨rfl, rfl⟩
    · exact (hreleased _).trans ⟨rfl, rfl⟩

theorem capacity_stands : Stands p (p.capacity payload origin atMs) := by
  refine (touch_stands p origin atMs).trans ?_
  unfold Projector.capacity
  generalize p.touch origin atMs = p
  induction payload generalizing p with
  | nil => exact .refl p
  | cons entry payload ih =>
    rw [List.foldl_cons]
    refine Stands.trans ?_ (ih _)
    dsimp only
    split
    · exact (level_stands p origin atMs _ _ _).trans (level_stands _ origin atMs _ _ _)
    · unfold Projector.slots
      dsimp only
      split
      · exact .refl p
      · exact (level_stands p origin atMs _ _ _).trans (level_stands _ origin atMs _ _ _)

theorem queue_stands : Stands p (p.queue payload origin atMs) := by
  unfold Projector.queue
  split
  · exact .refl p
  · refine (touch_stands p origin atMs).trans (Stands.trans ?_ (level_stands _ origin atMs _ _ _))
    exact ⟨rfl, rfl⟩

theorem started_stands : Stands p (p.started atMs) := by
  have hclosed : Stands p ({ p with board := p.board.closeOpenRows }.gap atMs none) := ⟨rfl, rfl⟩
  have hpublish : ∀ p', Stands p' (Projector.publishBoth p' atMs) :=
    fun p' => (publishOwn_stands p' atMs _ _).trans (publishOwn_stands _ atMs _ _)
  unfold Projector.started
  dsimp only
  split
  · have hrestart : ∀ p', Stands p' (Projector.restart p' atMs) := fun p' => ⟨rfl, rfl⟩
    exact (hclosed.trans (hrestart _)).trans (hpublish _)
  · exact hclosed.trans (hpublish _)

theorem disconnected_stands : Stands p (p.disconnected payload atMs) := by
  unfold Projector.disconnected
  split <;> exact ⟨rfl, rfl⟩

theorem deviceFact_stands (event : EventName) (durationField : Option String) :
    Stands p (p.deviceFact event durationField payload origin atMs) := by
  unfold Projector.deviceFact
  split
  · exact .refl p
  · dsimp only
    split <;> exact ⟨rfl, rfl⟩

theorem route_stands (event : EventName) : Stands p (p.route event payload origin atMs) := by
  unfold Projector.route
  split
  · exact .refl p
  · cases event with
    | leaseRequested => exact requested_stands p payload atMs
    | leaseRejected => exact rejected_stands p payload atMs
    | leaseDeclined => exact declined_stands p payload origin atMs
    | requestGranted => exact dispatched_stands p payload atMs
    | leaseGranted => exact granted_stands p payload origin atMs
    | leaseReleased => exact ended_stands p payload origin atMs false
    | leaseExpired => exact ended_stands p payload origin atMs true
    | capacityChanged => exact capacity_stands p payload origin atMs
    | queueChanged => exact queue_stands p payload origin atMs
    | daemonStopping => exact ⟨rfl, rfl⟩
    | daemonStarted => exact started_stands p atMs
    | _ => exact .refl p

theorem project_stands (e : EventEnvelope) : Stands p (p.project e) := by
  unfold Projector.project
  split
  · exact .refl p
  · dsimp only
    split
    · split
      · exact disconnected_stands p _ _
      · exact .refl p
    · split
      · exact .refl p
      · split
        · exact (load_stands p).trans (deviceFact_stands _ _ _ _ _ _)
        · exact (load_stands p).trans (route_stands _ _ _ _ _)

end

section
variable {t : ℚ} {p q : Projector}

theorem apply_lastSeq (p : Projector) (e : EventEnvelope) : (p.apply e).lastSeq = some e.seq :=
  (project_stands (p.enter e) e).lastSeq

theorem apply_options (p : Projector) (e : EventEnvelope) : (p.apply e).options = p.options := by
  refine (project_stands (p.enter e) e).options.trans ?_
  unfold Projector.enter
  split <;> rfl

/-! ### Runs -/

/-- What a new process knows: the rows alone. -/
theorem Settled.newRun (h : Settled t p q) : Settled t p.newRun q.newRun := by
  obtain ⟨⟨h1, h2, h3, h4, h5, h6, h7, h8, h9, s1, s2, s3, s4, s5⟩, hl, hr⟩ := h
  have hsame : p.board.newRun.Same q.board.newRun := Board.same_newRun fun w pl => by rw [h6.minutes]
  exact ⟨⟨h1, h2, h3, h4, h5, hsame, rfl, h8, h9, s1, s2, s3, s4, s5⟩,
    fun hloaded => ⟨(hl hloaded).1, (hl hloaded).2⟩, fun hloaded => ⟨(hr hloaded).1, (hr hloaded).2⟩⟩

theorem Settled.boot (h : Settled t p q) : Settled t p.boot q.newRun := by
  obtain ⟨h', -, hr⟩ := h.newRun
  obtain ⟨h1, h2, h3, h4, h5, h6, h7, h8, h9, s1, s2, s3, s4, s5⟩ := h'
  exact ⟨⟨h1, h2, h3, h4, h5, h6, h7, h8, h9, s1, s2, s3, s4, s5⟩,
    fun hloaded => absurd hloaded Bool.false_ne_true, hr⟩

theorem Settled.at (h : Settled t p q) (seq : Nat) :
    Settled t { p with lastSeq := some seq } { q with lastSeq := some seq } := by
  obtain ⟨⟨h1, h2, h3, h4, h5, h6, h7, h8, h9, s1, s2, s3, s4, s5⟩, hl, hr⟩ := h
  exact ⟨⟨h1, h2, h3, h4, h5, h6, h7, h8, h9, s1, s2, s3, s4, s5⟩,
    fun hloaded => ⟨(hl hloaded).1, (hl hloaded).2⟩, fun hloaded => ⟨(hr hloaded).1, (hr hloaded).2⟩⟩

/-- The two are in the same run, or the live one has just started a new one. -/
inductive SameRun (t : ℚ) (p q : Projector) : Prop where
  | within (seq : p.lastSeq = q.lastSeq) (h : Settled t p q)
  | begun (seq : p.lastSeq = none) (h : Settled t p q.newRun)

/-- A projector that applied no event knows nothing of a run. -/
def Unstarted (q : Projector) : Prop := q.lastSeq = none → q.newRun = q

structure ReplayOk (t : ℚ) (s : Replay) : Prop where
  run : SameRun t s.live s.replayed
  unstarted : Unstarted s.replayed

theorem SameRun.tables (h : SameRun t p q) : SameTables p q := by
  cases h with
  | within _ h => exact ⟨h.alike.requests, h.alike.heldLeases, h.alike.gaps, h.alike.facts,
      fun w pl => by rw [h.alike.board.minutes]⟩
  | begun _ h =>
    refine ⟨h.alike.requests, h.alike.heldLeases, h.alike.gaps, h.alike.facts, fun w pl => ?_⟩
    have hrows := congrArg KeyMinutes.rows (congrFun (congrFun h.alike.board.minutes w) pl)
    exact hrows

theorem SameRun.since (h : SameRun t p q) : Since t p := by
  cases h with
  | within _ h => exact h.alike.since
  | begun _ h => exact h.alike.since

theorem SameRun.enter (h : SameRun t p q) (hq : Unstarted q) {e : EventEnvelope}
    (hseq : p.lastSeq = none → ∀ last ∈ q.lastSeq, e.seq ≤ last) :
    Settled t (p.enter e) (q.enter e) := by
  unfold Projector.enter
  cases h with
  | within seq h =>
    have hbegins : q.beginsRun e = p.beginsRun e := by
      rw [Projector.beginsRun, Projector.beginsRun, seq]
    rw [hbegins]
    split
    · exact h.newRun.at e.seq
    · exact h.at e.seq
  | begun seq h =>
    have hlive : p.beginsRun e = false := by
      rw [Projector.beginsRun, seq]
      rfl
    rw [hlive, if_neg (by decide)]
    cases hlast : q.lastSeq with
    | none =>
      rw [hq hlast] at h
      have hbegins : q.beginsRun e = false := by
        rw [Projector.beginsRun, hlast]
        rfl
      rw [hbegins, if_neg (by decide)]
      exact h.at e.seq
    | some last =>
      have hbegins : q.beginsRun e = true := by
        rw [Projector.beginsRun, hlast, Option.any_some]
        exact decide_eq_true (hseq seq last hlast)
      rw [hbegins, if_pos rfl]
      exact h.at e.seq

theorem Projector.prune_eq {now : ℚ} (h : SameTables p (p.prune now)) :
    p.prune now = { p with loaded := false } := by
  have hminutes : (p.prune now).board = p.board := by
    have hrows : (p.prune now).board.minutes = p.board.minutes := by
      funext w pl
      have hrow := h.minutes w pl
      unfold Projector.prune KeyMinutes.deleteBefore at hrow ⊢
      dsimp only at hrow ⊢
      rw [hrow]
    unfold Projector.prune at hrows ⊢
    dsimp only at hrows ⊢
    rw [hrows]
  have h1 := h.requests
  have h2 := h.heldLeases
  have h3 := h.gaps
  have h4 := h.facts
  unfold Projector.prune at *
  dsimp only at *
  rw [h1, h2, h3, h4, hminutes]

theorem SameRun.step {s : Replay} (h : ReplayOk t s) {a : LiveAction} (hok : s.Careful a)
    (ht : ∀ e, a = .event e → t ≤ e.timestamp) : ReplayOk t (s.step a) := by
  cases a with
  | boot =>
    refine ⟨?_, h.unstarted⟩
    cases h.run with
    | within _ hs => exact .begun rfl hs.boot
    | begun _ hs => exact .begun rfl hs.boot
  | prune now =>
    refine ⟨?_, h.unstarted⟩
    change SameRun t (s.live.prune now) s.replayed
    rw [Projector.prune_eq hok]
    have hlive : ∀ {q}, Settled t s.live q → Settled t { s.live with loaded := false } q := by
      rintro q ⟨⟨h1, h2, h3, h4, h5, h6, h7, h8, h9, s1, s2, s3, s4, s5⟩, -, hr⟩
      exact ⟨⟨h1, h2, h3, h4, h5, h6, h7, h8, h9, s1, s2, s3, s4, s5⟩,
        fun hloaded => absurd hloaded Bool.false_ne_true, hr⟩
    cases h.run with
    | within hseq hs => exact .within hseq (hlive hs)
    | begun hseq hs => exact .begun hseq (hlive hs)
  | event e =>
    obtain ⟨hseq, hkeys⟩ := hok
    have hentered := h.run.enter h.unstarted hseq
    have hprojected := hentered.project (ht e rfl) hkeys
    have hlive : (s.live.apply e).lastSeq = some e.seq := apply_lastSeq s.live e
    have hreplayed : (s.replayed.apply e).lastSeq = some e.seq := apply_lastSeq s.replayed e
    refine ⟨.within (hlive.trans hreplayed.symm) hprojected, fun hnone => ?_⟩
    change (s.replayed.apply e).lastSeq = none at hnone
    rw [hreplayed] at hnone
    cases hnone

theorem ReplayOk.create (t : ℚ) (options : HistoryProjectionOptions) :
    ReplayOk t (Replay.create options) := by
  have hnone : ∀ w, (List.nil : List (Option Platform)) = heldPlatforms [] w := fun _ => rfl
  refine ⟨.within rfl ⟨⟨rfl, rfl, rfl, rfl, rfl, ?_, rfl, List.nodup_nil, List.nodup_nil, ?_⟩,
    fun hloaded => absurd hloaded Bool.false_ne_true,
    fun hloaded => absurd hloaded Bool.false_ne_true⟩, fun _ => rfl⟩
  · exact ⟨rfl, rfl, rfl, fun _ _ => Iff.rfl, fun _ => List.nodup_nil, fun _ => List.nodup_nil⟩
  · exact ⟨List.forall_mem_nil _, List.forall_mem_nil _, List.forall_mem_nil _,
      List.forall_mem_nil _, fun _ _ => List.forall_mem_nil _⟩

theorem storedEvents_cons (a : LiveAction) (acts : List LiveAction) :
    storedEvents (a :: acts) = storedEvents [a] ++ storedEvents acts := by
  cases a <;> rfl

theorem ReplayOk.runs (acts : List LiveAction) {s : Replay} (h : ReplayOk t s)
    (hok : Lib.AllSteps Replay.step Replay.Careful s acts)
    (ht : ∀ e ∈ storedEvents acts, t ≤ e.timestamp) : ReplayOk t (Lib.run Replay.step s acts) := by
  induction acts generalizing s with
  | nil => exact h
  | cons a acts ih =>
    rw [storedEvents_cons] at ht
    refine ih (SameRun.step h hok.1 fun e he => ?_) hok.2 fun e he =>
      ht e (List.mem_append_right _ he)
    subst he
    exact ht e (List.mem_append_left _ (List.mem_singleton_self e))

/-! ### The rebuild -/

/-- The live half of a replay is the live run, and the other has applied the stored events. -/
theorem replay_eq (acts : List LiveAction) (s : Replay) :
    (Lib.run Replay.step s acts).live = Lib.run Projector.liveStep s.live acts ∧
      (Lib.run Replay.step s acts).replayed = (storedEvents acts).foldl Projector.apply s.replayed := by
  induction acts generalizing s with
  | nil => exact ⟨rfl, rfl⟩
  | cons a acts ih =>
    rw [Lib.run_cons, Lib.run_cons, storedEvents_cons, List.foldl_append]
    obtain ⟨hlive, hreplayed⟩ := ih (s.step a)
    rw [hlive, hreplayed]
    cases a <;> exact ⟨rfl, rfl⟩

/-- The two differ at most in tallies that neither has read yet. -/
inductive Unread : Projector → Projector → Prop where
  | same (p : Projector) : Unread p p
  | stale (p : Projector) (waiting : Tally (Option Platform))
      (held : String → Tally (Option Platform)) (hp : p.loaded = false) :
      Unread { p with waiting := waiting, held := held } p

theorem Unread.load (h : Unread p q) : p.load = q.load := by
  cases h with
  | same => rfl
  | stale p waiting held hp =>
    unfold Projector.load
    rw [if_neg (by rw [hp]; decide), if_neg (by rw [hp]; decide)]

theorem Unread.enter (h : Unread p q) (e : EventEnvelope) : Unread (p.enter e) (q.enter e) := by
  cases h with
  | same => exact .same _
  | stale p waiting held hp =>
    have hbegins : Projector.beginsRun { q with waiting := waiting, held := held } e =
        q.beginsRun e := rfl
    unfold Projector.enter
    rw [hbegins]
    split
    · exact .stale { q.newRun with lastSeq := some e.seq } waiting held hp
    · exact .stale { q with lastSeq := some e.seq } waiting held hp

theorem Unread.disconnected (h : Unread p q) (payload : Payload) (atMs : ℚ) :
    Unread (p.disconnected payload atMs) (q.disconnected payload atMs) := by
  cases h with
  | same => exact .same _
  | stale p waiting held hp =>
    unfold Projector.disconnected
    split
    · exact .stale q waiting held hp
    · rename_i worker _
      exact .stale ({ q with
        board := (q.board.drop worker atMs).cut (some worker) atMs }.gap atMs (some worker))
          waiting held hp

theorem Unread.project (h : Unread p q) (e : EventEnvelope) :
    Unread (p.project e) (q.project e) := by
  have horigin : p.originOf = q.originOf := by
    cases h <;> rfl
  have hfleet : p.fleet = q.fleet := by
    cases h <;> rfl
  unfold Projector.project
  rw [horigin, hfleet, h.load]
  split
  · exact h
  · dsimp only
    split
    · split
      · exact h.disconnected _ _
      · exact h
    · split
      · exact h
      · exact .same _

theorem Unread.foldl (events : List EventEnvelope) : ∀ {p q : Projector}, Unread p q →
    Unread (events.foldl Projector.apply p) (events.foldl Projector.apply q) := by
  induction events with
  | nil => exact fun h => h
  | cons e events ih => exact fun h => ih ((h.enter e).project e)

theorem Unread.tables (h : Unread p q) : SameTables q p := by
  cases h <;> exact ⟨rfl, rfl, rfl, rfl, fun _ _ => rfl⟩

theorem SameTables.trans {p q r : Projector} (h : SameTables p q) (k : SameTables q r) :
    SameTables p r :=
  ⟨k.requests.trans h.requests, k.heldLeases.trans h.heldLeases, k.gaps.trans h.gaps,
    k.facts.trans h.facts, fun w pl => (k.minutes w pl).trans (h.minutes w pl)⟩

theorem emptied_board {b : Board} (h : ∀ w pl, (b.minutes w pl).rows = []) :
    b.closeOpenRows.newRun = ⟨fun _ _ => ⟨[], none⟩, fun _ _ => [], fun _ => [], []⟩ := by
  unfold Board.newRun
  congr 1
  funext w pl
  unfold Board.closeOpenRows KeyMinutes.closeOpenRows KeyMinutes.forget
  dsimp only
  split <;> simp [h w pl, KeyMinutes.closeKey]

/-- A rebuild starts from empty tables. -/
theorem rebuild_empties {oldest : Option ℚ} (hsince : ∀ t ∈ oldest, Since t p)
    (hnone : oldest = none → SameTables (.create p.options) p) :
    Unread (p.rebuild oldest) (.create p.options) := by
  have heq : p.rebuild oldest =
      { Projector.create p.options with waiting := p.waiting, held := p.held } := by
    cases oldest with
    | none =>
      obtain ⟨h1, h2, h3, h4, h5⟩ := hnone rfl
      unfold Projector.rebuild Projector.create
      dsimp only [Option.elim_none]
      rw [h1, h2, h3, h4, emptied_board h5]
      rfl
    | some t =>
      obtain ⟨s1, s2, s3, s4, s5⟩ := hsince t rfl
      have hrows : ∀ w pl, ((p.board.minutes w pl).deleteFrom (minuteOf t)).rows = [] := by
        intro w pl
        exact List.filter_eq_nil_iff.mpr fun r hr => by simpa using s5 w pl r hr
      unfold Projector.rebuild Projector.create Projector.deleteSince
      dsimp only [Option.elim_some]
      rw [List.filter_eq_nil_iff.mpr fun r hr => by simpa using s1 r hr,
        List.filter_eq_nil_iff.mpr fun l hl => by simpa using s2 l hl,
        List.filter_eq_nil_iff.mpr fun g hg => by simpa using (minuteOf_le t).trans (s3 g hg),
        List.filter_eq_nil_iff.mpr fun f hf => by simpa using s4 f hf, emptied_board hrows]
  rw [heq]
  exact .stale _ _ _ rfl

theorem live_options (options : HistoryProjectionOptions) (acts : List LiveAction) :
    (Lib.run Projector.liveStep (.create options) acts).options = options := by
  refine Lib.run_invariant (I := fun p : Projector => p.options = options) (fun p a hp => ?_) acts _
    rfl
  cases a with
  | boot => exact hp
  | event e => exact (apply_options p e).trans hp
  | prune now => exact hp

theorem oldestEventAt_le {events : List EventEnvelope} {oldest : ℚ}
    (h : oldestEventAt events = some oldest) : ∀ e ∈ events, oldest ≤ e.timestamp := by
  intro e he
  exact (List.min?_eq_some_iff.mp h).2 _ (List.mem_map.mpr ⟨e, he, rfl⟩)

/-- A rebuild from the stored events gives the tables the daemon runs wrote live. -/
theorem rebuild_gives_live_tables (options : HistoryProjectionOptions) (acts : List LiveAction)
    (hok : Lib.AllSteps Replay.step Replay.Careful (.create options) acts) :
    SameTables (Lib.run Projector.liveStep (.create options) acts)
      ((Lib.run Projector.liveStep (.create options) acts).rebuilt (storedEvents acts)) := by
  obtain ⟨hlive, hreplayed⟩ := replay_eq acts (.create options)
  have hruns : ∀ t, (∀ e ∈ storedEvents acts, t ≤ e.timestamp) →
      SameRun t (Lib.run Projector.liveStep (.create options) acts)
        ((storedEvents acts).foldl Projector.apply (.create options)) := by
    intro t ht
    have hrun := ((ReplayOk.create t options).runs acts hok ht).run
    rw [hlive, hreplayed] at hrun
    exact hrun
  generalize hp : Lib.run Projector.liveStep (.create options) acts = p at *
  have hoptions : p.options = options := hp ▸ live_options options acts
  have hunread : Unread (p.rebuild (oldestEventAt (storedEvents acts))) (.create p.options) := by
    refine rebuild_empties (fun t ht => (hruns t (oldestEventAt_le ht)).since) fun hnone => ?_
    -- without events the live projector is as it was made
    have hnil : storedEvents acts = [] := by
      rw [oldestEventAt, List.min?_eq_none_iff, List.map_eq_nil_iff] at hnone
      exact hnone
    have htables := (hruns 0 (by rw [hnil]; exact List.forall_mem_nil _)).tables
    rw [hnil, ← hoptions] at htables
    exact ⟨htables.requests.symm, htables.heldLeases.symm, htables.gaps.symm, htables.facts.symm,
      fun w pl => (htables.minutes w pl).symm⟩
  rw [hoptions] at hunread
  have hlast : ∃ t, ∀ e ∈ storedEvents acts, t ≤ e.timestamp := by
    cases hold : oldestEventAt (storedEvents acts) with
    | some t => exact ⟨t, oldestEventAt_le hold⟩
    | none =>
      rw [oldestEventAt, List.min?_eq_none_iff, List.map_eq_nil_iff] at hold
      exact ⟨0, by rw [hold]; exact List.forall_mem_nil _⟩
  obtain ⟨t, ht⟩ := hlast
  exact (hruns t ht).tables.trans (hunread.foldl (storedEvents acts)).tables

end

/-- A request for an iPhone. -/
def asked (requestId : String) : Option Json :=
  some (.object [("requestId", .string requestId), ("requester", .string "alice"),
    ("requestSpec", .object [("platform", .string "ios")])])

def refusedNow (requestId : String) : Option Json :=
  some (.object [("requestId", .string requestId), ("reason", .string "no-wait")])

/-- A request waits while the daemon crashes, and is rejected by the next run. -/
def waitsOverRestart : List LiveAction :=
  [.boot, .event ⟨1, 60000, .leaseRequested, asked "R1"⟩, .boot,
    .event ⟨1, 120000, .daemonStarted, none⟩,
    .event ⟨2, 180000, .leaseRejected, refusedNow "R1"⟩]

theorem rebuild_gives_live_tables_waitsOverRestart :
    ((Lib.run Projector.liveStep (.create ⟨false, 0⟩) waitsOverRestart).board.minutes ""
        (.on .ios)).rows.length = 3 ∧
      SameTables (Lib.run Projector.liveStep (.create ⟨false, 0⟩) waitsOverRestart)
        ((Lib.run Projector.liveStep (.create ⟨false, 0⟩) waitsOverRestart).rebuilt
          (storedEvents waitsOverRestart)) := by
  refine ⟨by decide +kernel, rebuild_gives_live_tables ⟨false, 0⟩ waitsOverRestart ?_⟩
  exact ⟨trivial, ⟨by decide +kernel, by decide +kernel⟩, trivial,
    ⟨by decide +kernel, by decide +kernel⟩, ⟨by decide +kernel, by decide +kernel⟩, trivial⟩

/-- A request is rejected, then the daemon restarts: live it publishes nothing at its start, the
    rebuild publishes the zero it has carried over. -/
def rejectedBeforeRestart : List LiveAction :=
  [.boot, .event ⟨1, 60000, .leaseRequested, asked "R1"⟩,
    .event ⟨2, 90000, .leaseRejected, refusedNow "R1"⟩, .boot,
    .event ⟨1, 600000, .daemonStarted, none⟩]

theorem zero_carried_over_restart : ¬ ∀ (options : HistoryProjectionOptions)
    (acts : List LiveAction), SameTables (Lib.run Projector.liveStep (.create options) acts)
      ((Lib.run Projector.liveStep (.create options) acts).rebuilt (storedEvents acts)) := by
  intro hall
  have hrows := (hall ⟨false, 0⟩ rejectedBeforeRestart).minutes "" (.on .ios)
  have hlength := congrArg List.length hrows
  revert hlength
  decide +kernel

end Simlock.History
