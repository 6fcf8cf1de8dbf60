import Simlock.History.MinuteTimeline
import Simlock.Lib.Run

/-! The steps and the cuts of a key keep the rows with the timeline.

    A step saves the row of its minute with the rest of the minute at the new level. A cut saves it
    with the rest taken back off, or ends what the last row carries. Run by run, the rows say of
    every minute what the levels come to over it. -/

namespace Simlock.History

open Lib (Timeline Summary summaryGauge Peak peakOf peakOf_pos peakOf_zero Levels)

variable {rows : List MinuteRow} {state : KeyState} {tl : Timeline UsageValue}

/-! ### One step -/

/-- Every value with a figure in the minute's row has a recorded peak that held for some time: a
    level that is cut at the very time it was set, or at which the minute began, is no higher than
    those that did. -/
def PeaksHeld (rows : List MinuteRow) (state : KeyState) (t : ℚ) : Prop :=
  ∀ row, KeyMinutes.load rows (minuteOf t) = some row → ∀ v f, row.figures v = some f →
    settledPeak (some f) (state.values v) (minuteOf t) t = some f.peak

/-- A level that goes on through a turn is held since the same time. -/
theorem HeldSince.turn {v : UsageValue} {held : Held} {s t : ℚ} {next : Levels UsageValue}
    (h : HeldSince tl v held) (hended : tl.Ended s) (hst : s ≤ t) (hsince : held.since ≤ t)
    (hnext : next v = some held.level) : HeldSince (tl.turn t (some next)) v held := by
  have hafter : ∀ a b, t ≤ a → a ≤ b →
      (((tl.turn t (some next)).total (summaryGauge UsageValue) a b).2 v).2 =
        peakOf (some held.level) (b - a) := fun a b hta hab => by
    rw [Timeline.total_of_ended ((hended.turn hst _).mono hta) hab, ← hnext]
    rfl
  refine ⟨h.minute, ?_, fun a b ha hab => ?_⟩
  · rw [Timeline.total_turn_before hsince, h.settled]
  · rcases le_total b t with hbt | htb
    · rw [Timeline.total_turn_before hbt, h.since a b ha hab]
    rcases le_total t a with hta | hat
    · exact hafter a b hta hab
    have hbefore := h.since a t ha hat
    rw [← Timeline.total_turn_before (g := summaryGauge UsageValue) le_rfl (some next)] at hbefore
    have hlength : b - a = (t - a) + (b - t) := by ring
    rw [Timeline.total_split hat htb, hlength, Lib.peakOf_add _ (sub_nonneg.2 hat)
      (sub_nonneg.2 htb), ← hbefore, ← hafter t b le_rfl htb]
    rfl

/-- The time known never exceeds the window. -/
def Fits (tl : Timeline UsageValue) : Prop :=
  ∀ a b, a ≤ b → 0 ≤ (tl.total (summaryGauge UsageValue) a b).1 ∧
    (tl.total (summaryGauge UsageValue) a b).1 ≤ b - a

theorem Fits.turn (h : Fits tl) {s t : ℚ} (hended : tl.Ended s) (hst : s ≤ t)
    (next : Option (Levels UsageValue)) : Fits (tl.turn t next) := by
  have hafter : ∀ a b, t ≤ a → a ≤ b →
      0 ≤ ((tl.turn t next).total (summaryGauge UsageValue) a b).1 ∧
        ((tl.turn t next).total (summaryGauge UsageValue) a b).1 ≤ b - a := fun a b hta hab => by
    rw [Timeline.total_of_ended ((hended.turn hst next).mono hta) hab]
    cases next with
    | none => exact ⟨le_rfl, sub_nonneg.2 hab⟩
    | some levels => exact ⟨sub_nonneg.2 hab, le_rfl⟩
  intro a b hab
  rcases le_total b t with hbt | htb
  · rw [Timeline.total_turn_before hbt]
    exact h a b hab
  rcases le_total t a with hta | hat
  · exact hafter a b hta hab
  have hleft := h a t hat
  have hright := hafter t b le_rfl htb
  rw [← Timeline.total_turn_before (g := summaryGauge UsageValue) le_rfl next] at hleft
  rw [Timeline.total_split hat htb, Prod.fst_add]
  constructor <;> linarith [hleft.1, hleft.2, hright.1, hright.2]

/-- A row with a step folded into it has the new level for the rest of the minute. -/
theorem Extended.fold {row : MinuteRow} {upTo : Summary UsageValue} {levels : Levels UsageValue}
    {rest : ℚ} (h : Extended row upTo levels rest) (hrest : 0 < rest) {v : UsageValue}
    {settled : Option ℚ} (hsettled : (upTo.2 v).2 = Peak.of settled) (level : ℚ) :
    Extended { foldFigure row v level (levels v) rest settled with carryUntil := none } upTo
      (Function.update levels v (some level)) rest := by
  refine ⟨h.known, fun w => ?_, fun w => ?_⟩
  · by_cases hw : w = v
    · subst hw
      simp only [MinuteRow.summary, foldFigure, Function.update_self, peakOf_pos _ hrest,
        Option.map_some, Option.getD_some]
      cases hfigure : row.figures w with
      | none =>
        rw [h.of_none hfigure]
        exact (zero_add ((level * rest, Peak.of (some level)) : ℚ × Peak)).symm
      | some f =>
        obtain ⟨hintegral, -⟩ := h.of_some hfigure
        refine Prod.ext ?_ ?_
        · simp only [hintegral, Prod.fst_add]
          ring
        · rw [Prod.snd_add, hsettled]
          exact Peak.of_maxPeak settled level
    · have hsame := h.figures w
      simpa only [MinuteRow.summary, foldFigure, Function.update_of_ne hw] using hsame
  · by_cases hw : w = v
    · subst hw
      simp only [foldFigure, Function.update_self, Option.bind_some]
      cases row.figures w <;> rfl
    · simp only [foldFigure, Function.update_of_ne hw, h.last w]

namespace Follows

variable {t : ℚ}

theorem lt_of_minuteOf_lt {k : ℤ} (h : minuteOf t < k * minuteMs) : t < k * minuteMs := by
  rw [← not_le, ← le_minuteOf_iff, not_le]
  exact h

/-- Once the row of the turn's minute is saved, the rows say what the timeline comes to. -/
theorem minutes_save (h : Follows rows state tl) (hst : state.lastAt ≤ t) (row : MinuteRow)
    (hminute : row.minute = minuteOf t) (next : Option (Levels UsageValue))
    (hsummary : row.summary = tl.total (summaryGauge UsageValue) (minuteOf t) t +
      next.elim 0 fun levels => (summaryGauge UsageValue).of levels (minuteOf t + minuteMs - t))
    (hcarried : ∀ minute, minuteOf t < minute →
      (if KeyMinutes.carries row minute then row.carried else 0) =
        next.elim 0 fun levels => (summaryGauge UsageValue).of levels minuteMs) (k : ℤ) :
    KeyMinutes.summaryAt (KeyMinutes.save rows row) (k * minuteMs) =
      (tl.turn t next).total (summaryGauge UsageValue) (k * minuteMs)
        (k * minuteMs + minuteMs) := by
  have hlast : ∀ r ∈ rows, r.minute ≤ row.minute := fun r hr => by
    rw [hminute]
    exact (h.before r hr).trans (KeyMinutes.minuteOf_mono hst)
  rcases lt_trichotomy (k * minuteMs) (minuteOf t) with hk | hk | hk
  · rw [KeyMinutes.summaryAt_save_of_lt h.nodup (hminute ▸ hk), h.minutes k,
      Timeline.total_turn_before ((add_le_of_lt_minuteOf hk).trans (minuteOf_le t))]
  · rw [hk, ← hminute, KeyMinutes.summaryAt_save_self, hminute, hsummary,
      Timeline.total_turn h.ended hst (minuteOf_le t) (lt_minuteOf_add t).le]
  · have hlater := (lt_of_minuteOf_lt hk).le
    have hlength : (k : ℚ) * minuteMs + minuteMs - k * minuteMs = minuteMs := by ring
    rw [KeyMinutes.summaryAt_save_of_gt h.nodup hlast (hminute ▸ hk), hcarried _ hk,
      Timeline.total_of_ended ((h.ended.turn hst next).mono hlater)
        (le_add_of_nonneg_right minuteMs_pos.le), hlength]
    cases next <;> rfl

theorem before_save (h : Follows rows state tl) (hst : state.lastAt ≤ t) {row : MinuteRow}
    (hminute : row.minute = minuteOf t) :
    ∀ r ∈ KeyMinutes.save rows row, r.minute ≤ minuteOf t := fun r hr => by
  rcases KeyMinutes.mem_save h.nodup hr with rfl | ⟨hr, -⟩
  · exact hminute.le
  · exact (h.before r hr).trans (KeyMinutes.minuteOf_mono hst)

theorem aligned_save (h : Follows rows state tl) {row : MinuteRow}
    (hrow : ∃ k : ℤ, row.minute = k * minuteMs) :
    ∀ r ∈ KeyMinutes.save rows row, ∃ k : ℤ, r.minute = k * minuteMs := fun r hr => by
  rcases KeyMinutes.mem_save h.nodup hr with rfl | ⟨hr, -⟩
  · exact hrow
  · exact h.aligned r hr

theorem eq_of_mem_save (h : Follows rows state tl) {row r : MinuteRow}
    (hr : r ∈ KeyMinutes.save rows row) (hminute : r.minute = row.minute) : r = row := by
  rcases KeyMinutes.mem_save h.nodup hr with rfl | ⟨-, hne⟩
  · rfl
  · exact absurd hminute hne

/-- The row `step` saves. -/
def steppedRow (rows : List MinuteRow) (state : KeyState) (v : UsageValue) (level t : ℚ) : MinuteRow :=
  let row := KeyMinutes.rowFor rows state (minuteOf t) t
  let held := if state.known then state.values v else none
  { foldFigure row v level (heldLevel state held (row.figures v)) (minuteOf t + minuteMs - t)
      (settledPeak (row.figures v) held (minuteOf t) t) with carryUntil := none }

theorem held_of_known (h : Follows rows state tl) (v : UsageValue) :
    (if state.known then state.values v else none) = state.values v := by
  match hknown : state.known with
  | true => rfl
  | false => rw [(h.closed hknown).1 v]; rfl

theorem heldLevel_eq (h : Follows rows state tl) {row : MinuteRow} {upTo : Summary UsageValue}
    {rest : ℚ} (hrow : Extended row upTo (levelsOf tl) rest) (v : UsageValue) :
    heldLevel state (state.values v) (row.figures v) = levelsOf tl v := by
  unfold heldLevel
  split
  · exact h.values_level v
  · exact hrow.last v

theorem extended_steppedRow (h : Follows rows state tl) (hst : state.lastAt ≤ t) (v : UsageValue)
    (level : ℚ) :
    Extended (steppedRow rows state v level t)
      (tl.total (summaryGauge UsageValue) (minuteOf t) t)
      (Function.update (levelsOf tl) v (some level)) (minuteOf t + minuteMs - t) := by
  have hrow := h.extended_rowFor hst
  unfold steppedRow
  dsimp only
  rw [h.held_of_known v, h.heldLevel_eq hrow v]
  exact hrow.fold (sub_pos.2 (lt_minuteOf_add t)) (h.settledPeak_eq hst hrow v) level

end Follows

theorem Extended.summary {row : MinuteRow} {upTo : Summary UsageValue}
    {levels : Levels UsageValue} {rest : ℚ} (h : Extended row upTo levels rest) :
    row.summary = upTo + (summaryGauge UsageValue).of levels rest :=
  Prod.ext h.known (funext fun v => h.figures v)

theorem Extended.carried {row : MinuteRow} {upTo : Summary UsageValue}
    {levels : Levels UsageValue} {rest : ℚ} (h : Extended row upTo levels rest) :
    row.carried = (summaryGauge UsageValue).of levels minuteMs := by
  rw [MinuteRow.carried, funext h.last]

namespace Follows

variable {t : ℚ}

theorem values_update (h : Follows rows state tl) (v : UsageValue) (held : Held) (w : UsageValue) :
    (Function.update state.values v (some held) w).map Held.level =
      Function.update (levelsOf tl) v (some held.level) w := by
  by_cases hw : w = v
  · subst hw
    rw [Function.update_self, Function.update_self]
    rfl
  · rw [Function.update_of_ne hw, Function.update_of_ne hw, h.values_level w]

/-- A step that changes the level. -/
theorem stepped (h : Follows rows state tl) (hst : state.lastAt ≤ t) (v : UsageValue) (level : ℚ) :
    Follows (KeyMinutes.save rows (steppedRow rows state v level t))
      { known := true
        values := Function.update state.values v
          (some
            { level := level
              settled := settledPeak ((KeyMinutes.rowFor rows state (minuteOf t) t).figures v)
                (if state.known then state.values v else none) (minuteOf t) t
              settledMinute := minuteOf t, since := t })
        lastAt := t
        lastRowMinute := minuteOf t }
      (tl.turn t (some (Function.update (levelsOf tl) v (some level)))) := by
  have hextended := h.extended_steppedRow hst v level
  have hminute : (steppedRow rows state v level t).minute = minuteOf t :=
    KeyMinutes.rowFor_minute rows state (minuteOf t) t
  refine
    { ended := h.ended.turn hst _
      known := rfl
      levels := ?_
      held := ?_
      nodup := KeyMinutes.nodup_save h.nodup _
      aligned := h.aligned_save ⟨_, hminute⟩
      before := h.before_save hst hminute
      row := fun _ => ⟨_, Lib.mem_upsert_self MinuteRow.minute _ rows, hminute⟩
      open_ := fun _ => ⟨rfl, fun r hr hr' => ?_⟩
      closed := nofun
      fits := Fits.turn h.fits h.ended hst _
      minutes := ?_ }
  · rintro n ⟨⟩
    exact ⟨rfl, h.values_update v _⟩
  · intro w held hheld
    dsimp only at hheld ⊢
    by_cases hw : w = v
    · subst hw
      rw [Function.update_self, Option.some.injEq] at hheld
      subst hheld
      refine ⟨le_rfl, rfl, ?_, fun a b ha hab => ?_⟩
      · rw [Timeline.total_turn_before le_rfl, h.held_of_known w]
        exact h.settledPeak_eq hst (h.extended_rowFor hst) w
      · rw [Timeline.total_of_ended ((h.ended.turn hst _).mono ha) hab]
        exact congrArg (peakOf · (b - a)) (Function.update_self ..)
    · rw [Function.update_of_ne hw] at hheld
      obtain ⟨hsince, hheldSince⟩ := h.held w held hheld
      refine ⟨hsince.trans hst, hheldSince.turn h.ended hst (hsince.trans hst) ?_⟩
      rw [Function.update_of_ne hw, ← h.values_level w, hheld]
      rfl
  · obtain rfl := h.eq_of_mem_save hr (hr'.trans hminute.symm)
    refine ⟨rfl, fun w => ?_⟩
    rw [hextended.last w]
    exact (h.values_update v ⟨level, t, _, minuteOf t⟩ w).symm
  · refine h.minutes_save hst _ hminute (some _) hextended.summary fun minute _ => ?_
    rw [if_pos (by rfl), hextended.carried]
    rfl

/-- The state `#end` leaves. -/
def endedState (state : KeyState) (t : ℚ) : KeyState :=
  { state with known := false, values := fun _ => none, lastAt := t }

theorem cutRow_last (row : MinuteRow) (minute atMs : ℚ) (v : UsageValue) (f : Figure)
    (h : (KeyMinutes.cutRow row minute atMs).figures v = some f) : f.last = none := by
  obtain ⟨f', -, rfl⟩ := Option.map_eq_some_iff.1 h
  rfl

/-- The row `#end` saves keeps what the minute came to. -/
theorem cutRow_summary {row : MinuteRow} {upTo : Summary UsageValue} {levels : Levels UsageValue}
    {minute atMs : ℚ} (h : Extended row upTo levels (minute + minuteMs - atMs)) (hupTo : 0 ≤ upTo.1)
    (hpeak : ∀ v f, row.figures v = some f → (upTo.2 v).2 = Peak.of (some f.peak)) :
    (KeyMinutes.cutRow row minute atMs).summary = upTo := by
  refine Prod.ext ?_ (funext fun v => ?_)
  · simp only [MinuteRow.summary, KeyMinutes.cutRow, h.known, add_sub_cancel_right]
    exact max_eq_right hupTo
  · simp only [MinuteRow.summary, KeyMinutes.cutRow]
    cases hv : row.figures v with
    | none =>
      rw [h.of_none hv]
      rfl
    | some f =>
      have hlast := h.last v
      rw [hv, Option.bind_some] at hlast
      refine Prod.ext ?_ ?_
      · simp only [Option.map_some, Option.getD_some, hlast, (h.of_some hv).1]
        ring
      · exact (hpeak v f hv).symm

/-- A cut in a minute whose row is saved. -/
theorem ended_row (h : Follows rows state tl) (hst : state.lastAt ≤ t) {row : MinuteRow}
    (hminute : row.minute = minuteOf t)
    (hrow : Extended row (tl.total (summaryGauge UsageValue) (minuteOf t) t) (levelsOf tl)
      (minuteOf t + minuteMs - t))
    (hpeak : ∀ v f, row.figures v = some f →
      ((tl.total (summaryGauge UsageValue) (minuteOf t) t).2 v).2 = Peak.of (some f.peak)) :
    Follows (KeyMinutes.save rows (KeyMinutes.cutRow row (minuteOf t) t)) (endedState state t)
      (tl.turn t none) where
  ended := h.ended.turn hst _
  known := rfl
  levels := nofun
  held := nofun
  nodup := KeyMinutes.nodup_save h.nodup _
  aligned := h.aligned_save ⟨_, hminute⟩
  before := h.before_save hst hminute
  row _ := ⟨_, Lib.mem_upsert_self MinuteRow.minute _ rows, hminute⟩
  open_ := nofun
  closed _ := ⟨fun _ => rfl, fun r hr hr' => by
    obtain rfl := h.eq_of_mem_save hr (hr'.trans hminute.symm)
    exact ⟨rfl, cutRow_last row (minuteOf t) t⟩⟩
  fits := Fits.turn h.fits h.ended hst _
  minutes := by
    refine h.minutes_save hst (KeyMinutes.cutRow row (minuteOf t) t) hminute none
      ?_ fun minute hlater => ?_
    · rw [cutRow_summary hrow (h.fits _ _ (minuteOf_le t)).1 hpeak]
      exact (add_zero _).symm
    · have hcarries : KeyMinutes.carries (KeyMinutes.cutRow row (minuteOf t) t) minute = false := by
        simp [KeyMinutes.carries, KeyMinutes.cutRow, hlater.le]
      rw [hcarries]
      rfl

/-- The last row, saved by a cut that writes no row of its own. -/
def carriedUntil (row : MinuteRow) (t : ℚ) : MinuteRow := { row with carryUntil := some t }

/-- A cut at the start of a minute without a row ends what the last row carries. -/
theorem ended_lastRow (h : Follows rows state tl) (hst : state.lastAt ≤ t)
    (hknown : state.known = true) (hload : KeyMinutes.load rows (minuteOf t) = none)
    (hminute : minuteOf t = t) {lastRow : MinuteRow}
    (hlastRow : KeyMinutes.load rows state.lastRowMinute = some lastRow) :
    Follows (KeyMinutes.save rows (carriedUntil lastRow t)) (endedState state t)
      (tl.turn t none) := by
  obtain ⟨n, hn, -, hlevels, hvalues⟩ := h.levelsOf_known hknown
  obtain ⟨hrowMinute, hopen⟩ := h.open_ hknown
  have hmem := List.mem_of_find?_eq_some hlastRow
  have hof : lastRow.minute = minuteOf state.lastAt :=
    (KeyMinutes.load_minute hlastRow).trans hrowMinute
  obtain ⟨hcarry, hfigures⟩ := hopen lastRow hmem hof
  have hbegun : state.lastAt < minuteOf t := (h.lastAt_le_of_load_none hst hload).2 hknown
  have hlt : lastRow.minute < minuteOf t := by
    rw [hof]
    exact (minuteOf_le _).trans_lt hbegun
  have hlast : ∀ r ∈ rows, r.minute ≤ (carriedUntil lastRow t).minute := fun r hr => by
    rw [carriedUntil, hof]
    exact h.before r hr
  have hcarried : (carriedUntil lastRow t).carried =
      (summaryGauge UsageValue).of n.2 minuteMs := by
    rw [MinuteRow.carried, ← hlevels]
    exact congrArg (fun levels => (summaryGauge UsageValue).of levels minuteMs)
      (funext fun v => (hfigures v).trans (hvalues v))
  have hall : ∀ r ∈ KeyMinutes.save rows (carriedUntil lastRow t),
      r.minute < minuteOf t := fun r hr => by
    rcases KeyMinutes.mem_save h.nodup hr with rfl | ⟨hr, -⟩
    · exact hlt
    · exact (hlast r hr).trans_lt hlt
  refine
    { ended := h.ended.turn hst _
      known := rfl
      levels := nofun
      held := nofun
      nodup := KeyMinutes.nodup_save h.nodup _
      aligned := h.aligned_save (h.aligned lastRow hmem)
      before := fun r hr => (hall r hr).le
      row := ?_
      open_ := nofun
      closed := fun _ => ⟨fun _ => rfl, fun r hr hr' => absurd hr' (hall r hr).ne⟩
      fits := Fits.turn h.fits h.ended hst _
      minutes := fun k => ?_ }
  · rintro (hbefore | hknown')
    · exact absurd hbefore (not_lt.2 hminute.ge)
    · cases hknown'
  · obtain ⟨j, hj⟩ := h.aligned lastRow hmem
    have hlength : (k : ℚ) * minuteMs + minuteMs - k * minuteMs = minuteMs := by ring
    rcases lt_or_ge (k * minuteMs) (minuteOf t) with hk | hk
    · have hover := add_le_of_lt_minuteOf hk
      rw [Timeline.total_turn_before (hminute ▸ hover)]
      rcases lt_trichotomy (k * minuteMs) (carriedUntil lastRow t).minute with hrow | hrow | hrow
      · rw [KeyMinutes.summaryAt_save_of_lt h.nodup hrow, h.minutes k]
      · rw [← h.minutes k, hrow]
        have hload : KeyMinutes.load rows (carriedUntil lastRow t).minute = some lastRow :=
          Lib.find_key_eq_some h.nodup hmem
        rw [KeyMinutes.summaryAt_save_self, KeyMinutes.summaryAt, hload]
        rfl
      · have hlater : state.lastAt ≤ k * minuteMs := by
          refine (lt_of_minuteOf_lt ?_).le
          rw [← hof]
          exact hrow
        have hcarries : KeyMinutes.carries (carriedUntil lastRow t) (k * minuteMs) :=
          decide_eq_true hk
        rw [KeyMinutes.summaryAt_save_of_gt h.nodup hlast hrow, if_pos hcarries, hcarried,
          Timeline.total_of_ended (h.ended.mono hlater) (le_add_of_nonneg_right minuteMs_pos.le),
          hn, hlength]
        rfl
    · have hrow : (carriedUntil lastRow t).minute < k * minuteMs := hlt.trans_le hk
      have hcarries : ¬ KeyMinutes.carries (carriedUntil lastRow t) (k * minuteMs) := by
        simp [KeyMinutes.carries, carriedUntil, hk]
      rw [KeyMinutes.summaryAt_save_of_gt h.nodup hlast hrow, if_neg hcarries,
        Timeline.total_of_ended ((h.ended.turn hst none).mono (hminute ▸ hk))
          (le_add_of_nonneg_right minuteMs_pos.le)]
      rfl

/-- The peaks of a row the levels that run were carried into are those levels. -/
theorem peak_carryInto (h : Follows rows state tl) (hst : state.lastAt ≤ t)
    (hknown : state.known = true) (hload : KeyMinutes.load rows (minuteOf t) = none)
    (hlater : minuteOf t < t) {v : UsageValue} {f : Figure}
    (hv : (carryInto ⟨minuteOf t, minuteMs, none, fun _ => none⟩ state).figures v = some f) :
    ((tl.total (summaryGauge UsageValue) (minuteOf t) t).2 v).2 = Peak.of (some f.peak) := by
  obtain ⟨n, hn, -, hlevels, hvalues⟩ := h.levelsOf_known hknown
  rw [carryInto_figures] at hv
  obtain ⟨held, hheld, rfl⟩ := Option.map_eq_some_iff.1 hv
  have hlevel : n.2 v = some held.level := by
    rw [← hlevels, ← hvalues v, hheld]
    rfl
  rw [h.total_of_load_none hst hload, hn, Option.elim_some]
  simp only [summaryGauge, hlevel]
  exact peakOf_pos _ (sub_pos.2 hlater)

/-- `#end` turns the timeline to nothing known. -/
theorem ended_ (h : Follows rows state tl) (hst : state.lastAt ≤ t) (hknown : state.known = true)
    (hpeaks : PeaksHeld rows state t) :
    ∃ rows', KeyMinutes.ended ⟨rows, some state⟩ state t = ⟨rows', some (endedState state t)⟩ ∧
      Follows rows' (endedState state t) (tl.turn t none) := by
  unfold KeyMinutes.ended
  dsimp only
  rw [max_eq_left hst]
  match hload : KeyMinutes.load rows (minuteOf t) with
  | some row =>
    have hrow := h.extended_of_load hst hknown hload
    refine ⟨_, rfl, h.ended_row hst (KeyMinutes.load_minute hload) hrow fun v f hv => ?_⟩
    rw [h.settledPeak_eq hst hrow v, hv, hpeaks row hload v f hv]
  | none =>
    dsimp only
    by_cases hlater : minuteOf t < t
    · rw [if_pos hlater]
      have hrow := h.extended_carryInto hst hknown hload
      exact ⟨_, rfl, h.ended_row hst rfl hrow fun v f hv =>
        h.peak_carryInto hst hknown hload hlater hv⟩
    · rw [if_neg hlater]
      have hminute : minuteOf t = t := le_antisymm (minuteOf_le t) (not_lt.1 hlater)
      obtain ⟨lastRow, hmem, hof⟩ := h.row (Or.inr hknown)
      have hlastRow : KeyMinutes.load rows state.lastRowMinute = some lastRow := by
        rw [(h.open_ hknown).1, ← hof]
        exact Lib.find_key_eq_some h.nodup hmem
      rw [hlastRow]
      exact ⟨_, rfl, h.ended_lastRow hst hknown hload hminute hlastRow⟩

end Follows

/-! ### Runs -/

/-- What the recorder is told of a key. -/
inductive UsageOp where
  | step (value : UsageValue) (level timestamp : ℚ)
  | cut (timestamp : ℚ)

def UsageOp.timestamp : UsageOp → ℚ
  | step _ _ timestamp => timestamp
  | cut timestamp => timestamp

def KeyMinutes.apply (m : KeyMinutes) : UsageOp → KeyMinutes
  | .step value level timestamp => m.step value level timestamp
  | .cut timestamp => m.cut timestamp

/-- The step function that is recorded. -/
def applyLevels (tl : Timeline UsageValue) : UsageOp → Timeline UsageValue
  | .step value level timestamp => tl.step value level timestamp
  | .cut timestamp => tl.cut timestamp

/-- A cut ends no recorded peak that has held for no time. -/
def CutHeld (m : KeyMinutes) : UsageOp → Prop
  | .step .. => True
  | .cut timestamp => ∀ state ∈ m.state, state.known = true → PeaksHeld m.rows state timestamp

/-- A key no one has stepped. -/
def KeyMinutes.new : KeyMinutes := ⟨[], none⟩

/-- The rows and the state a step finds follow the timeline, which ended by `s`. -/
structure Records (m : KeyMinutes) (tl : Timeline UsageValue) (s : ℚ) : Prop where
  follows : Follows m.opened.1 m.opened.2 tl
  last : m.opened.2.lastAt ≤ s
  fresh : m.state = none → m.rows = []

theorem total_empty (a b : ℚ) :
    (Timeline.empty : Timeline UsageValue).total (summaryGauge UsageValue) a b = 0 := by
  simp [Timeline.total, Timeline.empty]

theorem Records.new : Records .new Timeline.empty 0 where
  last := le_rfl
  fresh _ := rfl
  follows :=
    { ended := ⟨nofun, nofun⟩
      known := rfl
      levels := nofun
      held := nofun
      nodup := List.nodup_nil
      aligned := nofun
      before := nofun
      row := by
        rintro (hlt | hknown)
        · simp [minuteOf, KeyMinutes.new, KeyMinutes.opened, KeyState.new] at hlt
        · cases hknown
      open_ := nofun
      closed := fun _ => ⟨fun _ => rfl, nofun⟩
      fits := fun a b hab => by
        rw [total_empty]
        exact ⟨le_rfl, sub_nonneg.2 hab⟩
      minutes := fun k => by
        rw [total_empty]
        rfl }

/-- A step of a timeline at a level that does not run already. -/
theorem step_of_ne {v : UsageValue} {level t : ℚ} (h : levelsOf tl v ≠ some level) :
    tl.step v level t = tl.turn t (some (Function.update (levelsOf tl) v (some level))) := by
  unfold Timeline.step levelsOf at *
  match hnow : tl.now with
  | none => rfl
  | some (_, levels) =>
    rw [hnow] at h
    exact if_neg h

theorem step_of_eq {v : UsageValue} {level t : ℚ} (h : levelsOf tl v = some level) :
    tl.step v level t = tl := by
  unfold Timeline.step levelsOf at *
  match hnow : tl.now with
  | none =>
    rw [hnow] at h
    cases h
  | some (_, levels) =>
    rw [hnow] at h
    exact if_pos h

theorem Records.step {m : KeyMinutes} {s t : ℚ} (h : Records m tl s) (hst : s ≤ t)
    (v : UsageValue) (level : ℚ) : Records (m.step v level t) (tl.step v level t) t := by
  obtain ⟨hfollows, hlast, hfresh⟩ := h
  have hat : m.opened.2.lastAt ≤ t := hlast.trans hst
  have hlevel := hfollows.values_level v
  unfold KeyMinutes.step
  dsimp only
  by_cases hsame : levelsOf tl v = some level
  · -- the level runs already, and so something is known
    have hknown : m.opened.2.known = true := by
      by_contra hnot
      rw [Bool.not_eq_true] at hnot
      rw [(hfollows.now_none hnot).2 v] at hsame
      cases hsame
    rw [step_of_eq hsame, hlevel, hsame, hknown, decide_eq_true (by rfl), if_pos (by rfl)]
    exact ⟨hfollows, hat, nofun⟩
  · rw [step_of_ne hsame, hlevel, decide_eq_false hsame, Bool.and_false, if_neg Bool.false_ne_true,
      max_eq_left hat]
    exact ⟨hfollows.stepped hat v level, le_rfl, nofun⟩

theorem Records.cut {m : KeyMinutes} {s t : ℚ} (h : Records m tl s) (hst : s ≤ t)
    (hheld : CutHeld m (.cut t)) : Records (m.cut t) (tl.cut t) t := by
  obtain ⟨hfollows, hlast, hfresh⟩ := h
  have hat : m.opened.2.lastAt ≤ t := hlast.trans hst
  have hstill : m.opened.2.known = false → tl.cut t = tl := fun hknown => by
    rw [Timeline.cut, (hfollows.now_none hknown).1]
    rfl
  unfold KeyMinutes.cut
  match hstate : m.state with
  | none =>
    have hknown : m.opened.2.known = false := by
      unfold KeyMinutes.opened
      rw [hstate]
      rfl
    dsimp only
    rw [hstill hknown]
    exact ⟨hfollows, hat, hfresh⟩
  | some state =>
    have hopened : m.opened = (m.rows, state) := by
      unfold KeyMinutes.opened
      rw [hstate]
    dsimp only
    by_cases hknown : state.known = true
    · rw [hopened] at hfollows hat
      obtain ⟨rows', hended, hfollows'⟩ := hfollows.ended_ hat hknown (hheld state hstate hknown)
      have hm : m = ⟨m.rows, some state⟩ := by rw [← hstate]
      have hcut : tl.cut t = tl.turn t none := by
        rw [Timeline.cut, ← hfollows.known, hknown]
        rfl
      rw [if_pos hknown, hm, hended, hcut]
      exact ⟨hfollows', le_rfl, nofun⟩
    · rw [Bool.not_eq_true] at hknown
      rw [if_neg (by rw [hknown]; exact Bool.false_ne_true), hstill (by rw [hopened]; exact hknown)]
      exact ⟨hfollows, hat, hfresh⟩

theorem Records.apply {m : KeyMinutes} {s : ℚ} {op : UsageOp} (h : Records m tl s)
    (hst : s ≤ op.timestamp) (hheld : CutHeld m op) :
    Records (m.apply op) (applyLevels tl op) op.timestamp := by
  cases op with
  | step v level t => exact h.step hst v level
  | cut t => exact h.cut hst hheld

theorem Records.rows_eq {m : KeyMinutes} {s : ℚ} (h : Records m tl s) : m.opened.1 = m.rows := by
  unfold KeyMinutes.opened
  match hstate : m.state with
  | some state => rfl
  | none =>
    rw [h.fresh hstate]
    rfl

/-- Over a run in the order of time the rows follow the step function. -/
theorem Records.run {ops : List UsageOp} : ∀ {m : KeyMinutes} {tl : Timeline UsageValue} {s : ℚ},
    Records m tl s → List.IsChain (· ≤ ·) (s :: ops.map UsageOp.timestamp) →
    Lib.AllSteps KeyMinutes.apply CutHeld m ops →
    ∃ s', Records (Lib.run KeyMinutes.apply m ops) (Lib.run applyLevels tl ops) s' := by
  induction ops with
  | nil => exact fun h _ _ => ⟨_, h⟩
  | cons op ops ih =>
    intro m tl s h htimes hheld
    rw [List.map_cons, List.isChain_cons_cons] at htimes
    exact ih (h.apply htimes.1 hheld.1) htimes.2 hheld.2

end Simlock.History
