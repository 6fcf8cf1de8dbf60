import Mathlib.Data.List.MinMax
import Simlock.History.Boards
import Simlock.Lib.Timeline

/-! The minute rows of a key against the levels they record.

    A step gives a value a level from its time on, a cut ends all of them: that is a timeline. What
    the rows say of a minute is its row, or else what the last row before it carries into it; and
    that is what the timeline comes to over the minute. A peak is right as long as a cut never ends
    a level, recorded as the peak, that has held for no time. -/

namespace Simlock.History

open Lib (Timeline Summary summaryGauge Peak peakOf peakOf_pos peakOf_zero Levels)

/-! ### Minutes -/

theorem minuteMs_pos : 0 < minuteMs := by norm_num [minuteMs]

theorem lt_minuteOf_add (t : ℚ) : t < minuteOf t + minuteMs := by
  have hlt := (div_lt_iff₀ minuteMs_pos).1 (Int.lt_floor_add_one (t / minuteMs))
  unfold minuteOf
  linarith

theorem minuteOf_mul (k : ℤ) : minuteOf (k * minuteMs) = k * minuteMs := by
  rw [minuteOf, mul_div_assoc, div_self minuteMs_pos.ne', mul_one, Int.floor_intCast]

/-- A minute that begins by a time begins by the time's minute. -/
theorem le_minuteOf_iff {k : ℤ} {t : ℚ} : k * minuteMs ≤ minuteOf t ↔ k * minuteMs ≤ t := by
  refine ⟨fun h => h.trans (minuteOf_le t), fun h => ?_⟩
  rw [← minuteOf_mul k]
  exact KeyMinutes.minuteOf_mono h

/-- One that begins before the time's minute is over by then. -/
theorem add_le_of_lt_minuteOf {k : ℤ} {t : ℚ} (h : k * minuteMs < minuteOf t) :
    k * minuteMs + minuteMs ≤ minuteOf t := by
  unfold minuteOf at h ⊢
  have hlt : (k : ℚ) < ⌊t / minuteMs⌋ := lt_of_mul_lt_mul_right h minuteMs_pos.le
  have hle : (k : ℚ) + 1 ≤ ⌊t / minuteMs⌋ := by exact_mod_cast hlt
  nlinarith [minuteMs_pos]

theorem minuteOf_eq (t : ℚ) : ∃ k : ℤ, minuteOf t = k * minuteMs := ⟨_, rfl⟩

/-! ### What the rows say of a minute -/

def MinuteRow.summary (row : MinuteRow) : Summary UsageValue :=
  (row.knownMs, fun v =>
    (((row.figures v).map Figure.integral).getD 0, Peak.of ((row.figures v).map Figure.peak)))

/-- A whole minute at the last levels of a row. -/
def MinuteRow.carried (row : MinuteRow) : Summary UsageValue :=
  (summaryGauge UsageValue).of (fun v => (row.figures v).bind Figure.last) minuteMs

namespace KeyMinutes

def latestBefore (rows : List MinuteRow) (minute : ℚ) : Option MinuteRow :=
  rows.find? fun r =>
    r.minute < minute ∧ ∀ r' ∈ rows, r'.minute < minute → r'.minute ≤ r.minute

/-- A row holds on until the minute of `carryUntil`. -/
def carries (row : MinuteRow) (minute : ℚ) : Bool :=
  row.carryUntil.all fun atMs => minute < minuteOf atMs

def summaryAt (rows : List MinuteRow) (minute : ℚ) : Summary UsageValue :=
  match load rows minute with
  | some row => row.summary
  | none =>
    match latestBefore rows minute with
    | some row => if carries row minute then row.carried else 0
    | none => 0

variable {rows : List MinuteRow}

theorem latestBefore_eq_some (hnodup : (rows.map MinuteRow.minute).Nodup) {r : MinuteRow}
    (hr : r ∈ rows) {minute : ℚ} (hlt : r.minute < minute)
    (hmax : ∀ r' ∈ rows, r'.minute < minute → r'.minute ≤ r.minute) :
    latestBefore rows minute = some r := by
  match hfind : latestBefore rows minute with
  | none =>
    have hnot := List.find?_eq_none.1 hfind r hr
    simp only [decide_eq_true_eq, not_and] at hnot
    exact absurd hmax (hnot hlt)
  | some x =>
    have hx := List.find?_some hfind
    simp only [decide_eq_true_eq] at hx
    have hmem := List.mem_of_find?_eq_some hfind
    have hminute : x.minute = r.minute := le_antisymm (hmax x hmem hx.1) (hx.2 r hr hlt)
    rw [List.inj_on_of_nodup_map hnodup hmem hr hminute]

theorem latestBefore_some {minute : ℚ} {r : MinuteRow} (h : latestBefore rows minute = some r) :
    r ∈ rows ∧ r.minute < minute ∧ ∀ r' ∈ rows, r'.minute < minute → r'.minute ≤ r.minute := by
  have hr := List.find?_some h
  simp only [decide_eq_true_eq] at hr
  exact ⟨List.mem_of_find?_eq_some h, hr⟩

theorem latestBefore_none {minute : ℚ} (h : latestBefore rows minute = none) :
    ∀ r ∈ rows, minute ≤ r.minute := by
  intro r hr
  by_contra hlt
  rw [not_le] at hlt
  -- the latest of the rows before the minute would have been found
  have hmem : r ∈ rows.filter fun r => r.minute < minute := by simp [hr, hlt]
  obtain ⟨x, hx⟩ : ∃ x, (rows.filter fun r => r.minute < minute).argmax MinuteRow.minute = some x := by
    refine Option.ne_none_iff_exists'.1 fun hnone => ?_
    rw [List.argmax_eq_none] at hnone
    rw [hnone] at hmem
    cases hmem
  have hmemx := List.mem_filter.1 (List.argmax_mem hx)
  have hnot := List.find?_eq_none.1 h x hmemx.1
  simp only [decide_eq_true_eq, not_and] at hnot
  refine hnot (by simpa using hmemx.2) fun r' hr' hlt' => ?_
  exact List.le_of_mem_argmax (List.mem_filter.2 ⟨hr', by simpa using hlt'⟩) hx

/-! ### Saving the last row -/

theorem load_save_self (row : MinuteRow) : load (save rows row) row.minute = some row :=
  Lib.find_upsert_self MinuteRow.minute row rows

theorem load_save_of_ne {row : MinuteRow} {minute : ℚ} (h : row.minute ≠ minute) :
    load (save rows row) minute = load rows minute :=
  Lib.find_upsert_of_ne MinuteRow.minute h rows

theorem nodup_save (hnodup : (rows.map MinuteRow.minute).Nodup) (row : MinuteRow) :
    ((save rows row).map MinuteRow.minute).Nodup :=
  Lib.nodup_keys_upsert row hnodup

theorem mem_save (hnodup : (rows.map MinuteRow.minute).Nodup) {row r : MinuteRow}
    (h : r ∈ save rows row) : r = row ∨ (r ∈ rows ∧ r.minute ≠ row.minute) :=
  Lib.mem_upsert hnodup h

/-- What comes before the row saved says of a minute what it said. -/
theorem latestBefore_save_of_le (hnodup : (rows.map MinuteRow.minute).Nodup) {row : MinuteRow}
    {minute : ℚ} (h : minute ≤ row.minute) :
    latestBefore (save rows row) minute = latestBefore rows minute := by
  have hold : ∀ r ∈ save rows row, r.minute < minute → r ∈ rows := fun r hr hlt => by
    rcases mem_save hnodup hr with rfl | ⟨hr, -⟩
    · exact absurd hlt (not_lt.2 h)
    · exact hr
  match hfind : latestBefore rows minute with
  | some r =>
    obtain ⟨hr, hlt, hmax⟩ := latestBefore_some hfind
    have hne : r.minute ≠ row.minute := (hlt.trans_le h).ne
    exact latestBefore_eq_some (nodup_save hnodup row) (Lib.mem_upsert_of_ne hr hne) hlt
      fun r' hr' hlt' => hmax r' (hold r' hr' hlt') hlt'
  | none =>
    have hnone := latestBefore_none hfind
    match hfind' : latestBefore (save rows row) minute with
    | none => rfl
    | some r =>
      obtain ⟨hr, hlt, -⟩ := latestBefore_some hfind'
      exact absurd hlt (not_lt.2 (hnone r (hold r hr hlt)))

theorem summaryAt_save_of_lt (hnodup : (rows.map MinuteRow.minute).Nodup) {row : MinuteRow}
    {minute : ℚ} (h : minute < row.minute) :
    summaryAt (save rows row) minute = summaryAt rows minute := by
  rw [summaryAt, load_save_of_ne h.ne', latestBefore_save_of_le hnodup h.le, summaryAt]

theorem summaryAt_save_self (row : MinuteRow) :
    summaryAt (save rows row) row.minute = row.summary := by
  rw [summaryAt, load_save_self]

/-- After the last row it alone says what is known. -/
theorem summaryAt_save_of_gt (hnodup : (rows.map MinuteRow.minute).Nodup) {row : MinuteRow}
    (hlast : ∀ r ∈ rows, r.minute ≤ row.minute) {minute : ℚ} (h : row.minute < minute) :
    summaryAt (save rows row) minute = if carries row minute then row.carried else 0 := by
  have hbefore : ∀ r ∈ save rows row, r.minute ≤ row.minute := fun r hr => by
    rcases mem_save hnodup hr with rfl | ⟨hr, -⟩
    · exact le_rfl
    · exact hlast r hr
  have hload : load (save rows row) minute = none := by
    match hfind : load (save rows row) minute with
    | none => rfl
    | some r =>
      have hle := hbefore r (List.mem_of_find?_eq_some hfind)
      rw [load_minute hfind] at hle
      exact absurd h (not_lt.2 hle)
  rw [summaryAt, hload, latestBefore_eq_some (nodup_save hnodup row)
    (Lib.mem_upsert_self MinuteRow.minute row rows) h fun r hr _ => hbefore r hr]

end KeyMinutes

/-! ### The recorder and the timeline -/

/-- A value's level has run since it was set; before that in its minute it had the settled peak. -/
structure HeldSince (tl : Timeline UsageValue) (v : UsageValue) (held : Held) : Prop where
  minute : held.settledMinute = minuteOf held.since
  settled : ((tl.total (summaryGauge UsageValue) held.settledMinute held.since).2 v).2 =
    Peak.of held.settled
  since : ∀ a b, held.since ≤ a → a ≤ b →
    ((tl.total (summaryGauge UsageValue) a b).2 v).2 = peakOf (some held.level) (b - a)

/-- The rows and the state of a key follow a timeline. -/
structure Follows (rows : List MinuteRow) (state : KeyState) (tl : Timeline UsageValue) : Prop where
  ended : tl.Ended state.lastAt
  known : state.known = tl.now.isSome
  levels : ∀ n, tl.now = some n → n.1 = state.lastAt ∧
    ∀ v, (state.values v).map Held.level = n.2 v
  held : ∀ v held, state.values v = some held → held.since ≤ state.lastAt ∧ HeldSince tl v held
  nodup : (rows.map MinuteRow.minute).Nodup
  aligned : ∀ r ∈ rows, ∃ k : ℤ, r.minute = k * minuteMs
  before : ∀ r ∈ rows, r.minute ≤ minuteOf state.lastAt
  row : minuteOf state.lastAt < state.lastAt ∨ state.known = true →
    ∃ r ∈ rows, r.minute = minuteOf state.lastAt
  open_ : state.known = true → state.lastRowMinute = minuteOf state.lastAt ∧
    ∀ r ∈ rows, r.minute = minuteOf state.lastAt →
      r.carryUntil = none ∧ ∀ v, (r.figures v).bind Figure.last = (state.values v).map Held.level
  closed : state.known = false → (∀ v, state.values v = none) ∧
    ∀ r ∈ rows, r.minute = minuteOf state.lastAt →
      r.carryUntil.isSome ∧ ∀ v f, r.figures v = some f → f.last = none
  fits : ∀ a b, a ≤ b → 0 ≤ (tl.total (summaryGauge UsageValue) a b).1 ∧
    (tl.total (summaryGauge UsageValue) a b).1 ≤ b - a
  minutes : ∀ k : ℤ, KeyMinutes.summaryAt rows (k * minuteMs) =
    tl.total (summaryGauge UsageValue) (k * minuteMs) (k * minuteMs + minuteMs)

theorem Peak.of_maxPeak (settled : Option ℚ) (level : ℚ) :
    Peak.of (some (maxPeak settled level)) = Peak.of settled + Peak.of (some level) := by
  cases settled with
  | none => exact (zero_add (Peak.of (some level))).symm
  | some p => rfl

/-- What runs, by value. -/
def levelsOf (tl : Timeline UsageValue) : Levels UsageValue := (tl.now.map Prod.snd).getD fun _ => none

/-- A row that has what a minute comes to up to some time, and the rest of it at the levels that
    run. -/
structure Extended (row : MinuteRow) (upTo : Summary UsageValue) (levels : Levels UsageValue)
    (rest : ℚ) : Prop where
  known : row.knownMs = upTo.1 + rest
  figures : ∀ v, row.summary.2 v = upTo.2 v + ((levels v).getD 0 * rest, peakOf (levels v) rest)
  last : ∀ v, (row.figures v).bind Figure.last = levels v

theorem peakOf_none (length : ℚ) : peakOf none length = 0 := by
  unfold peakOf
  split <;> rfl

/-- A value without a figure has come to nothing yet. -/
theorem Extended.of_none {row : MinuteRow} {upTo : Summary UsageValue} {levels : Levels UsageValue}
    {rest : ℚ} (h : Extended row upTo levels rest) {v : UsageValue} (hv : row.figures v = none) :
    upTo.2 v = 0 := by
  have hlast := h.last v
  have hfigures := h.figures v
  rw [hv, Option.bind_none] at hlast
  rw [← hlast, peakOf_none, Option.getD_none, zero_mul] at hfigures
  have hzero : row.summary.2 v = 0 := by
    rw [MinuteRow.summary]
    simp only [hv]
    rfl
  rw [hzero] at hfigures
  exact (add_zero (upTo.2 v)).symm.trans hfigures.symm

theorem Extended.of_some {row : MinuteRow} {upTo : Summary UsageValue} {levels : Levels UsageValue}
    {rest : ℚ} (h : Extended row upTo levels rest) {v : UsageValue} {f : Figure}
    (hv : row.figures v = some f) :
    f.integral = (upTo.2 v).1 + (levels v).getD 0 * rest ∧
      Peak.of (some f.peak) = (upTo.2 v).2 + peakOf (levels v) rest := by
  have hfigures := h.figures v
  rw [MinuteRow.summary] at hfigures
  simp only [hv, Option.map_some, Option.getD_some] at hfigures
  exact ⟨congrArg Prod.fst hfigures, congrArg Prod.snd hfigures⟩

variable {rows : List MinuteRow} {state : KeyState} {tl : Timeline UsageValue}

namespace Follows

theorem levelsOf_known (h : Follows rows state tl) (hknown : state.known = true) :
    ∃ n, tl.now = some n ∧ n.1 = state.lastAt ∧ levelsOf tl = n.2 ∧
      ∀ v, (state.values v).map Held.level = levelsOf tl v := by
  have hnow := h.known
  rw [hknown] at hnow
  obtain ⟨n, hn⟩ := Option.isSome_iff_exists.1 hnow.symm
  obtain ⟨hlast, hvalues⟩ := h.levels n hn
  have hlevels : levelsOf tl = n.2 := by rw [levelsOf, hn]; rfl
  exact ⟨n, hn, hlast, hlevels, fun v => by rw [hlevels, hvalues v]⟩

theorem now_none (h : Follows rows state tl) (hknown : state.known = false) :
    tl.now = none ∧ ∀ v, levelsOf tl v = none := by
  have hnow := h.known
  rw [hknown] at hnow
  have hnone : tl.now = none := by
    rw [← Option.not_isSome_iff_eq_none, ← hnow]
    exact Bool.false_ne_true
  exact ⟨hnone, fun v => by rw [levelsOf, hnone]; rfl⟩

/-- The values a key holds are the levels that run. -/
theorem values_level (h : Follows rows state tl) (v : UsageValue) :
    (state.values v).map Held.level = levelsOf tl v := by
  match hknown : state.known with
  | true =>
    obtain ⟨-, -, -, -, hvalues⟩ := h.levelsOf_known hknown
    exact hvalues v
  | false => rw [(h.closed hknown).1 v, (h.now_none hknown).2 v]; rfl

variable {atMs : ℚ}

/-- Over a minute that has a time in it. -/
theorem total_minute (h : Follows rows state tl) (hat : state.lastAt ≤ atMs) :
    tl.total (summaryGauge UsageValue) (minuteOf atMs) (minuteOf atMs + minuteMs) =
      tl.total (summaryGauge UsageValue) (minuteOf atMs) atMs +
        tl.now.elim 0 fun n => (summaryGauge UsageValue).of n.2 (minuteOf atMs + minuteMs - atMs) :=
  Timeline.total_running (h.ended.mono hat) (minuteOf_le atMs) (lt_minuteOf_add atMs).le

theorem load_summary (h : Follows rows state tl) {row : MinuteRow}
    (hrow : KeyMinutes.load rows (minuteOf atMs) = some row) :
    row.summary =
      tl.total (summaryGauge UsageValue) (minuteOf atMs) (minuteOf atMs + minuteMs) := by
  obtain ⟨k, hk⟩ := minuteOf_eq atMs
  rw [hk] at hrow ⊢
  rw [← h.minutes k, KeyMinutes.summaryAt, hrow]

/-- A row of the minute is of the last one stepped. -/
theorem minute_of_load (h : Follows rows state tl) (hat : state.lastAt ≤ atMs) {row : MinuteRow}
    (hrow : KeyMinutes.load rows (minuteOf atMs) = some row) :
    row ∈ rows ∧ row.minute = minuteOf state.lastAt := by
  have hmem := List.mem_of_find?_eq_some hrow
  have hminute := KeyMinutes.load_minute hrow
  refine ⟨hmem, le_antisymm (h.before row hmem) ?_⟩
  rw [hminute]
  exact KeyMinutes.minuteOf_mono hat

/-- Without a row of the minute nothing happened in it. -/
theorem lastAt_le_of_load_none (h : Follows rows state tl) (hat : state.lastAt ≤ atMs)
    (hrow : KeyMinutes.load rows (minuteOf atMs) = none) :
    state.lastAt ≤ minuteOf atMs ∧ (state.known = true → state.lastAt < minuteOf atMs) := by
  have hno : ∀ r ∈ rows, r.minute ≠ minuteOf atMs := fun r hr heq => by
    have hnot := List.find?_eq_none.1 hrow r hr
    simp [heq] at hnot
  have hmono := KeyMinutes.minuteOf_mono hat
  have hlater : (∃ r ∈ rows, r.minute = minuteOf state.lastAt) →
      state.lastAt < minuteOf atMs := fun ⟨r, hr, hminute⟩ => by
    have hlt : minuteOf state.lastAt < minuteOf atMs :=
      lt_of_le_of_ne hmono fun heq => hno r hr (hminute.trans heq)
    obtain ⟨k, hk⟩ := minuteOf_eq atMs
    rw [hk, ← not_le, ← le_minuteOf_iff, not_le, ← hk]
    exact hlt
  refine ⟨?_, fun hknown => hlater (h.row (Or.inr hknown))⟩
  rcases (minuteOf_le state.lastAt).eq_or_lt with heq | hlt
  · rw [← heq]
    exact hmono
  · exact (hlater (h.row (Or.inl hlt))).le

/-- What a minute in which nothing happened yet comes to up to a time. -/
theorem total_of_load_none (h : Follows rows state tl) (hat : state.lastAt ≤ atMs)
    (hrow : KeyMinutes.load rows (minuteOf atMs) = none) :
    tl.total (summaryGauge UsageValue) (minuteOf atMs) atMs =
      tl.now.elim 0 fun n => (summaryGauge UsageValue).of n.2 (atMs - minuteOf atMs) :=
  Timeline.total_of_ended (h.ended.mono (h.lastAt_le_of_load_none hat hrow).1) (minuteOf_le atMs)

/-- A stored row of the minute, as it is when the levels are known. -/
theorem extended_of_load (h : Follows rows state tl) (hat : state.lastAt ≤ atMs) {row : MinuteRow}
    (hknown : state.known = true) (hrow : KeyMinutes.load rows (minuteOf atMs) = some row) :
    Extended row (tl.total (summaryGauge UsageValue) (minuteOf atMs) atMs) (levelsOf tl)
      (minuteOf atMs + minuteMs - atMs) := by
  obtain ⟨n, hn, -, hlevels, hvalues⟩ := h.levelsOf_known hknown
  have hsum := (h.load_summary hrow).trans (h.total_minute hat)
  rw [hn, Option.elim_some, ← hlevels] at hsum
  obtain ⟨hmem, hminute⟩ := h.minute_of_load hat hrow
  refine ⟨congrArg Prod.fst hsum, fun v => congrFun (congrArg Prod.snd hsum) v, fun v => ?_⟩
  rw [((h.open_ hknown).2 row hmem hminute).2 v, hvalues v]

theorem carryInto_figures (minute : ℚ) (state : KeyState) (v : UsageValue) :
    (carryInto ⟨minute, minuteMs, none, fun _ => none⟩ state).figures v =
      (state.values v).map fun held =>
        { integral := held.level * minuteMs, last := some held.level, peak := held.level } := by
  unfold carryInto
  dsimp only
  cases state.values v <;> rfl

/-- A new row of the minute, with the levels that run carried into it. -/
theorem extended_carryInto (h : Follows rows state tl) (hat : state.lastAt ≤ atMs)
    (hknown : state.known = true) (hrow : KeyMinutes.load rows (minuteOf atMs) = none) :
    Extended (carryInto ⟨minuteOf atMs, minuteMs, none, fun _ => none⟩ state)
      (tl.total (summaryGauge UsageValue) (minuteOf atMs) atMs) (levelsOf tl)
      (minuteOf atMs + minuteMs - atMs) := by
  obtain ⟨n, hn, -, hlevels, hvalues⟩ := h.levelsOf_known hknown
  have hupTo := h.total_of_load_none hat hrow
  rw [hn, Option.elim_some, ← hlevels] at hupTo
  have hwhole : (atMs - minuteOf atMs) + (minuteOf atMs + minuteMs - atMs) = minuteMs := by ring
  have hbegun : 0 ≤ atMs - minuteOf atMs := sub_nonneg.2 (minuteOf_le atMs)
  have hrest : 0 ≤ minuteOf atMs + minuteMs - atMs := sub_nonneg.2 (lt_minuteOf_add atMs).le
  have hsum := (summaryGauge UsageValue).add (levelsOf tl) hbegun hrest
  rw [hwhole, ← hupTo] at hsum
  have hcarried : (carryInto ⟨minuteOf atMs, minuteMs, none, fun _ => none⟩ state).summary =
      (summaryGauge UsageValue).of (levelsOf tl) minuteMs := by
    refine Prod.ext rfl (funext fun v => ?_)
    simp only [MinuteRow.summary, carryInto_figures, summaryGauge, ← hvalues v]
    match state.values v with
    | none =>
      simp only [Option.map_none, Option.getD_none, zero_mul, peakOf_none]
      rfl
    | some held =>
      simp only [Option.map_some, Option.getD_some, peakOf_pos _ minuteMs_pos]
  refine ⟨congrArg Prod.fst (hcarried.trans hsum), fun v => ?_, fun v => ?_⟩
  · exact congrFun (congrArg Prod.snd (hcarried.trans hsum)) v
  · rw [← hvalues v, carryInto_figures]
    cases state.values v <;> rfl

/-- What a step finds in the minute when nothing is known: what it came to until the cut. -/
theorem extended_of_unknown (h : Follows rows state tl) (hat : state.lastAt ≤ atMs)
    (hknown : state.known = false) :
    Extended (KeyMinutes.rowFor rows state (minuteOf atMs) atMs)
      (tl.total (summaryGauge UsageValue) (minuteOf atMs) atMs) (levelsOf tl)
      (minuteOf atMs + minuteMs - atMs) := by
  obtain ⟨hnow, hlevels⟩ := h.now_none hknown
  have hsum := h.total_minute hat
  rw [hnow, Option.elim_none, add_zero] at hsum
  have hfits := (h.fits (minuteOf atMs) atMs (minuteOf_le atMs)).2
  match hrow : KeyMinutes.load rows (minuteOf atMs) with
  | some stored =>
    obtain ⟨hmem, hminute⟩ := h.minute_of_load hat hrow
    obtain ⟨hclosed, hlast⟩ := (h.closed hknown).2 stored hmem hminute
    have hstored := (h.load_summary hrow).trans hsum
    have hms : stored.knownMs = (tl.total (summaryGauge UsageValue) (minuteOf atMs) atMs).1 :=
      congrArg Prod.fst hstored
    have hmin : stored.knownMs + (minuteOf atMs + minuteMs - atMs) ≤ minuteMs := by
      rw [hms]
      linarith
    have hrowFor : KeyMinutes.rowFor rows state (minuteOf atMs) atMs =
        { stored with knownMs := stored.knownMs + (minuteOf atMs + minuteMs - atMs) } := by
      unfold KeyMinutes.rowFor
      dsimp only
      rw [hrow]
      dsimp only
      rw [hknown, hclosed, if_pos (by rfl), min_eq_right hmin]
    rw [hrowFor]
    refine ⟨by rw [← hms], fun v => ?_, fun v => ?_⟩
    · rw [hlevels v, peakOf_none, Option.getD_none, zero_mul]
      exact (congrFun (congrArg Prod.snd hstored) v).trans (add_zero _).symm
    · rw [hlevels v]
      match hv : stored.figures v with
      | none => rfl
      | some f => simp only [Option.bind_some, hlast v f hv]
  | none =>
    have hupTo := h.total_of_load_none hat hrow
    rw [hnow, Option.elim_none] at hupTo
    have hrowFor : KeyMinutes.rowFor rows state (minuteOf atMs) atMs =
        { minute := minuteOf atMs, carryUntil := none, figures := fun _ => none,
          knownMs := minuteOf atMs + minuteMs - atMs } := by
      unfold KeyMinutes.rowFor
      dsimp only
      rw [hrow]
      dsimp only
      rw [hknown]
      rfl
    rw [hrowFor, hupTo]
    refine ⟨(zero_add _).symm, fun v => ?_, fun v => (hlevels v).symm⟩
    rw [hlevels v, peakOf_none, Option.getD_none, zero_mul]
    exact (add_zero (0 : ℚ × Peak)).symm

/-- The row a step folds into. -/
theorem extended_rowFor (h : Follows rows state tl) (hat : state.lastAt ≤ atMs) :
    Extended (KeyMinutes.rowFor rows state (minuteOf atMs) atMs)
      (tl.total (summaryGauge UsageValue) (minuteOf atMs) atMs) (levelsOf tl)
      (minuteOf atMs + minuteMs - atMs) := by
  match hknown : state.known with
  | false => exact h.extended_of_unknown hat hknown
  | true =>
    match hrow : KeyMinutes.load rows (minuteOf atMs) with
    | some stored =>
      have hrowFor : KeyMinutes.rowFor rows state (minuteOf atMs) atMs = stored := by
        unfold KeyMinutes.rowFor
        dsimp only
        rw [hrow]
        dsimp only
        rw [hknown, if_neg (by simp)]
      rw [hrowFor]
      exact h.extended_of_load hat hknown hrow
    | none =>
      have hrowFor : KeyMinutes.rowFor rows state (minuteOf atMs) atMs =
          carryInto ⟨minuteOf atMs, minuteMs, none, fun _ => none⟩ state := by
        unfold KeyMinutes.rowFor
        dsimp only
        rw [hrow]
        dsimp only
        rw [hknown]
        rfl
      rw [hrowFor]
      exact h.extended_carryInto hat hknown hrow

/-- The settled peak is the peak of the minute up to the time. -/
theorem settledPeak_eq (h : Follows rows state tl) (hat : state.lastAt ≤ atMs) {row : MinuteRow}
    (hrow : Extended row (tl.total (summaryGauge UsageValue) (minuteOf atMs) atMs) (levelsOf tl)
      (minuteOf atMs + minuteMs - atMs)) (v : UsageValue) :
    ((tl.total (summaryGauge UsageValue) (minuteOf atMs) atMs).2 v).2 =
      Peak.of (settledPeak (row.figures v) (state.values v) (minuteOf atMs) atMs) := by
  have hlevel := h.values_level v
  match hheld : state.values v with
  | none =>
    rw [hheld, Option.map_none] at hlevel
    match hfigure : row.figures v with
    | none =>
      rw [hrow.of_none hfigure]
      rfl
    | some f =>
      have hpeak := (hrow.of_some hfigure).2
      rw [← hlevel, peakOf_none, add_zero] at hpeak
      exact hpeak.symm
  | some held =>
    obtain ⟨hsince, hheldSince⟩ := h.held v held hheld
    have hle : held.since ≤ atMs := hsince.trans hat
    unfold settledPeak
    dsimp only
    rw [hheldSince.minute]
    by_cases hminute : minuteOf held.since = minuteOf atMs
    · -- set in this minute: the settled peak, and the level if it held for any time
      have hbegin : minuteOf atMs ≤ held.since := by
        rw [← hminute]
        exact minuteOf_le _
      have hsplit := tl.total_split (g := summaryGauge UsageValue) hbegin hle
      have hsettled := hheldSince.settled
      rw [hheldSince.minute, hminute] at hsettled
      rw [hsplit, if_pos hminute, max_eq_left hbegin]
      have hsum : ((tl.total (summaryGauge UsageValue) (minuteOf atMs) held.since +
          tl.total (summaryGauge UsageValue) held.since atMs).2 v).2 =
          Peak.of held.settled + peakOf (some held.level) (atMs - held.since) := by
        rw [← hsettled, ← hheldSince.since held.since atMs le_rfl hle]
        rfl
      rw [hsum]
      split
      · rename_i hpos
        rw [peakOf_pos _ hpos, Peak.of_maxPeak]
      · rename_i hpos
        have hzero : atMs - held.since = 0 := le_antisymm (not_lt.1 hpos) (sub_nonneg.2 hle)
        rw [hzero, peakOf_zero, add_zero]
    · have hbegin : held.since ≤ minuteOf atMs := by
        obtain ⟨k, hk⟩ := minuteOf_eq held.since
        have hlt : minuteOf held.since < minuteOf atMs :=
          lt_of_le_of_ne (KeyMinutes.minuteOf_mono hle) hminute
        have hover := add_le_of_lt_minuteOf (hk ▸ hlt)
        rw [← hk] at hover
        exact (lt_minuteOf_add held.since).le.trans hover
      rw [if_neg hminute, max_eq_right hbegin, hheldSince.since _ _ hbegin (minuteOf_le atMs)]
      split
      · rename_i hpos
        rw [peakOf_pos _ hpos]
        rfl
      · rename_i hpos
        have hzero : atMs - minuteOf atMs = 0 :=
          le_antisymm (not_lt.1 hpos) (sub_nonneg.2 (minuteOf_le atMs))
        rw [hzero, peakOf_zero]
        rfl

end Follows

end Simlock.History
