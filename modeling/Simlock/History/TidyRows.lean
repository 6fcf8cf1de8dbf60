import Simlock.History.Rebuild
import Simlock.History.MinuteTimeline

/-! What holds of the minute rows of every key, whatever is recorded.

    The events change the rows of a key only by steps, cuts and the closing of open rows, and a new
    run forgets the state kept beside them. A property of a key that these four keep is one of every
    key after any events. That every row is of a whole minute, and of a minute of its own, is one:
    pruning and rebuilding only delete rows. -/

namespace Simlock.History

open Core (Platform Json Payload payloadOf)
open Lib (Tally)

/-- A property of a key that the recorder keeps. -/
structure Lasting (P : KeyMinutes → Prop) : Prop where
  step : ∀ {m}, P m → ∀ (value : UsageValue) (level atMs : ℚ), P (m.step value level atMs)
  cut : ∀ {m}, P m → ∀ atMs : ℚ, P (m.cut atMs)
  closeOpenRows : ∀ {m}, P m → P m.closeOpenRows
  forget : ∀ {m}, P m → P m.forget

/-! ### The board -/

namespace Board

/-- The property holds of every key. -/
def Everywhere (P : KeyMinutes → Prop) (b : Board) : Prop := ∀ w pl, P (b.minutes w pl)

variable {P : KeyMinutes → Prop} {b : Board}

theorem Everywhere.step (h : b.Everywhere P) (hP : Lasting P) (worker : String)
    (platform : RowPlatform) (value : UsageValue) (level atMs : ℚ) :
    (b.step worker platform value level atMs).Everywhere P := by
  intro w pl
  simp only [Board.step, atKey]
  split
  · exact hP.step (h w pl) value level atMs
  · exact h w pl

theorem Everywhere.level (h : b.Everywhere P) (hP : Lasting P) (fleet : Bool) (origin : Origin)
    (platform : RowPlatform) (value : UsageValue) (level atMs : ℚ) :
    (b.level fleet origin platform value level atMs).Everywhere P := by
  have hown := h.step hP origin.worker platform value level atMs
  unfold Board.level
  dsimp only
  split
  · exact hown
  · split
    · split
      · exact hown.step hP "*" platform value level atMs
      · exact hown
    · split
      · exact hown
      · exact Everywhere.step (b := Board.setLevel _ _ _ _ _) hown hP "*" platform value _ atMs

theorem Everywhere.publishCounts (h : b.Everywhere P) (hP : Lasting P) (fleet : Bool)
    (counts : Tally (Option Platform)) (value : UsageValue) (origin : Origin) (atMs : ℚ)
    (platforms : List (Option Platform)) :
    (b.publishCounts fleet counts value origin atMs platforms).Everywhere P := by
  refine Everywhere.level ?_ hP fleet origin .all value _ atMs
  induction platforms generalizing b with
  | nil => exact h
  | cons p platforms ih =>
    refine ih ?_
    cases p with
    | none => exact h
    | some p => exact h.level hP fleet origin _ value _ atMs

theorem Everywhere.drop (h : b.Everywhere P) (hP : Lasting P) (worker : String) (atMs : ℚ) :
    (b.drop worker atMs).Everywhere P := by
  have hone : ∀ (gone : List (UsageValue × ℚ)) (p : RowPlatform) (b : Board), b.Everywhere P →
      (gone.foldl (fun b e => b.fleetTotal p e.1 atMs) b).Everywhere P := by
    intro gone p
    induction gone with
    | nil => exact fun b hb => hb
    | cons e gone ih => exact fun b hb => ih _ (hb.step hP "*" p e.1 _ atMs)
  have hall : ∀ (platforms : List RowPlatform) (b' : Board), b'.Everywhere P →
      (platforms.foldl (fun b' p => b'.dropPlatform (b.levels worker) atMs p) b').Everywhere P := by
    intro platforms
    induction platforms with
    | nil => exact fun b' hb' => hb'
    | cons p platforms ih => exact fun b' hb' => ih _ (hone _ p b' hb')
  exact hall _ _ h

theorem Everywhere.cut (h : b.Everywhere P) (hP : Lasting P) (worker : Option String) (atMs : ℚ) :
    (b.cut worker atMs).Everywhere P := by
  intro w pl
  simp only [Board.cut]
  split
  · exact hP.cut (h w pl) atMs
  · exact h w pl

theorem Everywhere.closeOpenRows (h : b.Everywhere P) (hP : Lasting P) :
    b.closeOpenRows.Everywhere P :=
  fun w pl => hP.closeOpenRows (h w pl)

theorem Everywhere.newRun (h : b.Everywhere P) (hP : Lasting P) : b.newRun.Everywhere P :=
  fun w pl => hP.forget (h w pl)

end Board

/-! ### The events -/

section
variable {P : KeyMinutes → Prop} (hP : Lasting P) {p : Projector} (payload : Payload)
  (origin : Origin) (atMs : ℚ)

include hP

omit hP in
theorem load_everywhere (h : p.board.Everywhere P) : p.load.board.Everywhere P := by
  unfold Projector.load
  split <;> exact h

theorem settle_everywhere (h : p.board.Everywhere P) (requestId : String)
    (outcome : RequestRow → RequestRow) : (p.settle requestId outcome atMs).board.Everywhere P := by
  unfold Projector.settle
  split
  · exact h
  · dsimp only
    split
    · exact h
    · exact h.publishCounts hP _ _ _ _ _ _

theorem touch_everywhere (h : p.board.Everywhere P) : (p.touch origin atMs).board.Everywhere P := by
  unfold Projector.touch
  split
  · exact h
  · dsimp only
    split
    · exact h
    · exact Board.Everywhere.publishCounts
        (b := { p.board with connected := p.board.connected ++ [origin.worker] }) h hP _ _ _ _ _ _

theorem hold_everywhere (h : p.board.Everywhere P) (lease : HeldLease) :
    (p.hold lease origin atMs).board.Everywhere P := by
  unfold Projector.hold
  dsimp only
  split
  · exact h.publishCounts hP _ _ _ _ _ _
  · exact h

theorem unhold_everywhere (h : p.board.Everywhere P) (leaseId : String) :
    (p.unhold leaseId origin atMs).board.Everywhere P := by
  unfold Projector.unhold
  split
  · exact h
  · exact h.publishCounts hP _ _ _ _ _ _

theorem level_everywhere (h : p.board.Everywhere P) (platform : RowPlatform) (value : UsageValue)
    (level : Option ℚ) : (p.level origin platform value level atMs).board.Everywhere P := by
  unfold Projector.level
  split
  · exact h.level hP _ _ _ _ _ _
  · exact h

theorem publishOwn_everywhere (h : p.board.Everywhere P) (counts : Tally (Option Platform))
    (value : UsageValue) : (p.publishOwn counts value atMs).board.Everywhere P := by
  unfold Projector.publishOwn
  split
  · exact h
  · exact h.publishCounts hP _ _ _ _ _ _

theorem requested_everywhere (h : p.board.Everywhere P) :
    (p.requested payload atMs).board.Everywhere P := by
  unfold Projector.requested
  split
  · exact h
  · dsimp only
    split
    · exact h.publishCounts hP _ _ _ _ _ _
    · exact h

theorem rejected_everywhere (h : p.board.Everywhere P) :
    (p.rejected payload atMs).board.Everywhere P := by
  unfold Projector.rejected
  split
  · exact h
  · dsimp only
    split
    · exact h
    · exact settle_everywhere hP atMs h _ _

theorem declined_everywhere (h : p.board.Everywhere P) :
    (p.declined payload origin atMs).board.Everywhere P := by
  unfold Projector.declined
  split
  · exact h
  · dsimp only
    split
    · exact h
    · exact settle_everywhere hP atMs h _ _

theorem dispatched_everywhere (h : p.board.Everywhere P) :
    (p.dispatched payload atMs).board.Everywhere P := by
  unfold Projector.dispatched
  split
  · exact h
  · exact settle_everywhere hP atMs h _ _

theorem granted_everywhere (h : p.board.Everywhere P) :
    (p.granted payload origin atMs).board.Everywhere P := by
  unfold Projector.granted
  split
  · exact h
  · have hheld := fun lease => hold_everywhere hP origin atMs (touch_everywhere hP origin atMs h) lease
    dsimp only
    split
    · split
      · exact hheld _
      · exact hheld _
    · split
      · exact settle_everywhere hP atMs (hheld _) _ _
      · exact hheld _

theorem ended_everywhere (h : p.board.Everywhere P) (expired : Bool) :
    (p.ended expired payload origin atMs).board.Everywhere P := by
  unfold Projector.ended
  split
  · exact h
  · have hreleased := fun id => unhold_everywhere hP origin atMs (touch_everywhere hP origin atMs h) id
    dsimp only
    split
    · exact hreleased _
    · exact hreleased _

theorem capacity_everywhere (h : p.board.Everywhere P) :
    (p.capacity payload origin atMs).board.Everywhere P := by
  have htouched := touch_everywhere hP origin atMs h
  unfold Projector.capacity
  clear h
  generalize p.touch origin atMs = p at htouched
  induction payload generalizing p with
  | nil => exact htouched
  | cons entry payload ih =>
    rw [List.foldl_cons]
    refine ih _ ?_
    dsimp only
    split
    · exact level_everywhere hP origin atMs (level_everywhere hP origin atMs htouched _ _ _) _ _ _
    · unfold Projector.slots
      dsimp only
      split
      · exact htouched
      · exact level_everywhere hP origin atMs (level_everywhere hP origin atMs htouched _ _ _) _ _ _

theorem queue_everywhere (h : p.board.Everywhere P) :
    (p.queue payload origin atMs).board.Everywhere P := by
  unfold Projector.queue
  split
  · exact h
  · exact (touch_everywhere hP origin atMs h).level hP _ _ _ _ _ _

theorem started_everywhere (h : p.board.Everywhere P) : (p.started atMs).board.Everywhere P := by
  have hpublish : ∀ {p' : Projector}, p'.board.Everywhere P →
      (Projector.publishBoth p' atMs).board.Everywhere P := fun h' =>
    publishOwn_everywhere hP atMs (publishOwn_everywhere hP atMs h' _ _) _ _
  unfold Projector.started
  dsimp only
  split
  · exact hpublish (load_everywhere (h.closeOpenRows hP))
  · exact hpublish (h.closeOpenRows hP)

omit hP in
theorem deviceFact_everywhere (h : p.board.Everywhere P) (event : EventName)
    (durationField : Option String) :
    (p.deviceFact event durationField payload origin atMs).board.Everywhere P := by
  unfold Projector.deviceFact
  split
  · exact h
  · dsimp only
    split <;> exact h

theorem route_everywhere (h : p.board.Everywhere P) (event : EventName) :
    (p.route event payload origin atMs).board.Everywhere P := by
  unfold Projector.route
  split
  · exact h
  · cases event with
    | leaseRequested => exact requested_everywhere hP payload atMs h
    | leaseRejected => exact rejected_everywhere hP payload atMs h
    | leaseDeclined => exact declined_everywhere hP payload origin atMs h
    | requestGranted => exact dispatched_everywhere hP payload atMs h
    | leaseGranted => exact granted_everywhere hP payload origin atMs h
    | leaseReleased => exact ended_everywhere hP payload origin atMs h false
    | leaseExpired => exact ended_everywhere hP payload origin atMs h true
    | capacityChanged => exact capacity_everywhere hP payload origin atMs h
    | queueChanged => exact queue_everywhere hP payload origin atMs h
    | daemonStopping => exact h.cut hP none atMs
    | daemonStarted => exact started_everywhere hP atMs h
    | _ => exact h

/-- An event keeps a lasting property of every key. -/
theorem apply_everywhere (h : p.board.Everywhere P) (e : EventEnvelope) :
    (p.apply e).board.Everywhere P := by
  have henter : (p.enter e).board.Everywhere P := by
    unfold Projector.enter
    split
    · exact h.newRun hP
    · exact h
  unfold Projector.apply
  generalize p.enter e = p at henter
  unfold Projector.project
  split
  · exact henter
  · dsimp only
    split
    · split
      · unfold Projector.disconnected
        split
        · exact henter
        · exact (henter.drop hP _ _).cut hP _ _
      · exact henter
    · split
      · exact henter
      · split
        · exact deviceFact_everywhere _ _ _ (load_everywhere henter) _ _
        · exact route_everywhere hP _ _ _ (load_everywhere henter) _

end

/-! ### Rows of whole minutes -/

namespace KeyMinutes

/-- The rows are of whole minutes, and no two of one. -/
structure Tidy (rows : List MinuteRow) : Prop where
  nodup : (rows.map MinuteRow.minute).Nodup
  aligned : ∀ r ∈ rows, ∃ k : ℤ, r.minute = k * minuteMs

variable {rows : List MinuteRow}

theorem Tidy.nil : Tidy [] := ⟨List.nodup_nil, nofun⟩

theorem Tidy.filter (h : Tidy rows) (keep : MinuteRow → Bool) : Tidy (rows.filter keep) :=
  ⟨(List.filter_sublist.map MinuteRow.minute).nodup h.nodup,
    fun r hr => h.aligned r (List.mem_filter.1 hr).1⟩

theorem Tidy.closeKey (h : Tidy rows) : Tidy (closeKey rows) := by
  have hminute : ∀ r ∈ KeyMinutes.closeKey rows, ∃ r' ∈ rows, r.minute = r'.minute := by
    intro r hr
    obtain ⟨r', hr', rfl⟩ := List.mem_map.1 hr
    exact ⟨r', hr', by split <;> rfl⟩
  refine ⟨?_, fun r hr => ?_⟩
  · have hmap : (KeyMinutes.closeKey rows).map MinuteRow.minute = rows.map MinuteRow.minute := by
      rw [KeyMinutes.closeKey, List.map_map]
      exact List.map_congr_left fun r _ => by dsimp only [Function.comp]; split <;> rfl
    rw [hmap]
    exact h.nodup
  · obtain ⟨r', hr', hsame⟩ := hminute r hr
    rw [hsame]
    exact h.aligned r' hr'

theorem Tidy.save (h : Tidy rows) {row : MinuteRow} (hrow : ∃ k : ℤ, row.minute = k * minuteMs) :
    Tidy (save rows row) := by
  refine ⟨nodup_save h.nodup row, fun r hr => ?_⟩
  rcases mem_save h.nodup hr with rfl | ⟨hr, -⟩
  · exact hrow
  · exact h.aligned r hr

theorem Tidy.opened {m : KeyMinutes} (h : Tidy m.rows) : Tidy m.opened.1 := by
  unfold KeyMinutes.opened
  split
  · exact h
  · exact h.closeKey

/-- The recorder keeps the rows tidy. -/
theorem lasting_tidy : Lasting fun m => Tidy m.rows where
  step := by
    intro m h value level atMs
    unfold KeyMinutes.step
    dsimp only
    split
    · exact h.opened
    · refine h.opened.save ?_
      change ∃ k : ℤ, (rowFor _ _ _ _).minute = k * minuteMs
      rw [rowFor_minute]
      exact minuteOf_eq _
  cut := by
    intro m h atMs
    unfold KeyMinutes.cut
    split
    · rename_i state hstate
      split
      · unfold KeyMinutes.ended
        dsimp only
        cases hload : load m.rows (minuteOf (max atMs state.lastAt)) with
        | some row => exact h.save (h.aligned row (List.mem_of_find?_eq_some hload))
        | none =>
          dsimp only
          by_cases hlate : minuteOf (max atMs state.lastAt) < max atMs state.lastAt
          · rw [if_pos hlate]
            exact h.save (minuteOf_eq _)
          · rw [if_neg hlate]
            dsimp only
            split
            · rename_i lastRow hlast
              exact h.save (h.aligned lastRow (List.mem_of_find?_eq_some hlast))
            · exact h
      · exact h
    · exact h
  closeOpenRows := by
    intro m h
    unfold KeyMinutes.closeOpenRows
    split
    · exact h.closeKey
    · exact h
  forget := fun h => h

end KeyMinutes

/-! ### Recorded histories -/

/-- The projector of a history: new, or after a boot, an event, a pruning or a rebuild. -/
inductive Recorded : Projector → Prop where
  | create (options : HistoryProjectionOptions) : Recorded (.create options)
  | live {p : Projector} (a : LiveAction) : Recorded p → Recorded (p.liveStep a)
  | rebuilt {p : Projector} (events : List EventEnvelope) : Recorded p → Recorded (p.rebuilt events)

/-- In a recorded history the rows of every key are tidy. -/
theorem Recorded.tidy {p : Projector} (h : Recorded p) :
    p.board.Everywhere fun m => KeyMinutes.Tidy m.rows := by
  have hP := KeyMinutes.lasting_tidy
  induction h with
  | create options => exact fun w pl => .nil
  | live a _ ih =>
    cases a with
    | boot => exact ih.newRun hP
    | event e => exact apply_everywhere hP ih e
    | prune now => exact fun w pl => (ih w pl).filter _
  | @rebuilt p events _ ih =>
    have hdeleted : ∀ oldest : Option ℚ,
        (p.rebuild oldest).board.Everywhere fun m => KeyMinutes.Tidy m.rows := by
      intro oldest
      unfold Projector.rebuild
      dsimp only
      refine Board.Everywhere.newRun (Board.Everywhere.closeOpenRows ?_ hP) hP
      cases oldest with
      | none => exact ih
      | some oldestEventAt => exact fun w pl => (ih w pl).filter _
    unfold Projector.rebuilt
    refine List.foldlRecOn (motive := fun p : Projector =>
      p.board.Everywhere fun m => KeyMinutes.Tidy m.rows) events _ (hdeleted _) ?_
    exact fun p hp e _ => apply_everywhere hP hp e

end Simlock.History
