import Simlock.History.TidyRows
import Simlock.History.UsageExactness

/-! What a pruning leaves of the reads after it.

    A level is carried from the row it was last set in, so a read that starts after that row still
    needs it. The pruning deletes rows by their minute alone:

        rows      ──●────────────────────────────────▶ carried on
        cutoff              │
        read                │    [ from ─────── to )

    A read from the cutoff on is the same before and after the pruning, unless the last row before
    the cutoff is carried into the first whole minute that is not before it. -/

namespace Simlock.History

namespace KeyMinutes

/-- The first whole minute from the cutoff on. -/
def minuteFrom (cutoff : ℚ) : ℚ := ⌈cutoff / minuteMs⌉ * minuteMs

/-- The last row before the cutoff still holds in the first minute after it, and no row of that
    minute takes its place. -/
def carriedOver (rows : List MinuteRow) (cutoff : ℚ) : Bool :=
  (load rows (minuteFrom cutoff)).isNone &&
    (latestBefore rows cutoff).any fun row => carries row (minuteFrom cutoff)

theorem le_minuteFrom (cutoff : ℚ) : cutoff ≤ minuteFrom cutoff := by
  rw [minuteFrom, ← div_le_iff₀ minuteMs_pos]
  exact Int.le_ceil _

/-- A whole minute is from the cutoff on exactly when it is from that minute on. -/
theorem minuteFrom_le_iff {cutoff : ℚ} {k : ℤ} :
    minuteFrom cutoff ≤ k * minuteMs ↔ cutoff ≤ k * minuteMs := by
  rw [minuteFrom, BucketQuery.mul_minuteMs_le, Int.ceil_le, div_le_iff₀ minuteMs_pos]

end KeyMinutes

namespace BucketQuery

open KeyMinutes

variable {q : BucketQuery} {rows : List MinuteRow} {cutoff : ℚ}

/-- The rows a pruning leaves. -/
def kept (rows : List MinuteRow) (cutoff : ℚ) : List MinuteRow :=
  rows.filter fun r => cutoff ≤ r.minute

/-! ### Reads that no longer need a deleted row -/

theorem tidy_kept (h : Tidy rows) (cutoff : ℚ) : Tidy (kept rows cutoff) := h.filter _

theorem inWindow_kept (h : cutoff ≤ q.from_) : q.inWindow (kept rows cutoff) = q.inWindow rows := by
  rw [inWindow, inWindow, kept, List.filter_filter]
  refine List.filter_congr fun r _ => ?_
  simp only [Bool.decide_and, Bool.and_eq_left_iff_imp, Bool.and_eq_true, decide_eq_true_eq]
  exact fun hr => h.trans hr.1

theorem grouped_kept (h : cutoff ≤ q.from_) : q.grouped (kept rows cutoff) = q.grouped rows := by
  rw [grouped, grouped, inWindow_kept h]

/-- Where the spans of a read start, when the last row before the window is known. -/
theorem spansFrom_of_latest {r : MinuteRow} (h : latestBefore rows q.from_ = some r) :
    q.spansFrom rows = r.minute := by
  obtain ⟨hr, hlt, hmax⟩ := latestBefore_some h
  have hmem : r.minute ∈ (rows.filter fun r => r.minute < q.from_).map MinuteRow.minute :=
    List.mem_map.2 ⟨r, List.mem_filter.2 ⟨hr, by simpa using hlt⟩, rfl⟩
  have hmax? : ((rows.filter fun r => r.minute < q.from_).map MinuteRow.minute).max? =
      some r.minute := by
    refine List.max?_eq_some_iff.2 ⟨hmem, fun m hm => ?_⟩
    obtain ⟨r', hr', rfl⟩ := List.mem_map.1 hm
    obtain ⟨hr', hlt'⟩ := List.mem_filter.1 hr'
    exact hmax r' hr' (by simpa using hlt')
  rw [spansFrom, hmax?, Option.getD_some]

theorem spansFrom_of_none (h : latestBefore rows q.from_ = none) : q.spansFrom rows = q.from_ := by
  have hnone : (rows.filter fun r => r.minute < q.from_) = [] := by
    refine List.filter_eq_nil_iff.2 fun r hr => ?_
    simpa using latestBefore_none h r hr
  rw [spansFrom, hnone]
  rfl

theorem latestBefore_kept_of_le {r : MinuteRow} (hnodup : (rows.map MinuteRow.minute).Nodup)
    {minute : ℚ} (h : latestBefore rows minute = some r) (hr : cutoff ≤ r.minute) :
    latestBefore (kept rows cutoff) minute = some r := by
  obtain ⟨hmem, hlt, hmax⟩ := latestBefore_some h
  refine latestBefore_eq_some ((List.filter_sublist.map _).nodup hnodup)
    (List.mem_filter.2 ⟨hmem, by simpa using hr⟩) hlt fun r' hr' hlt' => ?_
  exact hmax r' (List.mem_filter.1 hr').1 hlt'

theorem latestBefore_kept_of_lt {minute : ℚ}
    (h : ∀ r, latestBefore rows minute = some r → r.minute < cutoff) :
    latestBefore (kept rows cutoff) minute = none := by
  cases hkept : latestBefore (kept rows cutoff) minute with
  | none => rfl
  | some r =>
    obtain ⟨hmem, hlt, -⟩ := latestBefore_some hkept
    obtain ⟨hmem, hr⟩ := List.mem_filter.1 hmem
    rw [decide_eq_true_eq] at hr
    cases hlast : latestBefore rows minute with
    | none => exact absurd hlt (not_lt.2 (latestBefore_none hlast r hmem))
    | some r' =>
      have hle := (latestBefore_some hlast).2.2 r hmem hlt
      exact absurd (h r' hlast) (not_lt.2 (hr.trans hle))

/-- Where the spans start from the cutoff on, the rows of the spans are all kept. -/
theorem spanRows_kept (hfrom : q.spansFrom (kept rows cutoff) = q.spansFrom rows)
    (hle : cutoff ≤ q.spansFrom rows) : q.spanRows (kept rows cutoff) = q.spanRows rows := by
  rw [spanRows, spanRows, hfrom, kept, List.filter_filter]
  refine congrArg (fun l : List MinuteRow => l.mergeSort fun r r' => r.minute ≤ r'.minute) ?_
  refine List.filter_congr fun r _ => ?_
  simp only [Bool.decide_and, Bool.and_eq_left_iff_imp, Bool.and_eq_true, decide_eq_true_eq]
  exact fun hr => hle.trans hr.1

/-- Where the last row before the window is deleted, its span is the one that goes. -/
theorem spanRows_of_deleted (htidy : Tidy rows) {r : MinuteRow}
    (h : latestBefore rows q.from_ = some r) (hr : r.minute < cutoff) (hfrom : cutoff ≤ q.from_)
    (hto : r.minute < q.to_) : q.spanRows rows = r :: q.spanRows (kept rows cutoff) := by
  have hkept : latestBefore (kept rows cutoff) q.from_ = none :=
    latestBefore_kept_of_lt fun r' hr' => by
      rw [h] at hr'
      rw [← Option.some.inj hr']
      exact hr
  obtain ⟨hmem, hlt, hmax⟩ := latestBefore_some h
  have hall : Ascending (q.spanRows rows) := ascending_spanRows htidy.nodup
  have hrest : Ascending (r :: q.spanRows (kept rows cutoff)) := by
    refine List.pairwise_cons.2 ⟨fun x hx => ?_, ascending_spanRows (tidy_kept htidy cutoff).nodup⟩
    rw [mem_spanRows, spansFrom_of_none hkept] at hx
    exact hlt.trans_le hx.2.1
  have hiff : ∀ x, x ∈ q.spanRows rows ↔ x ∈ r :: q.spanRows (kept rows cutoff) := by
    intro x
    rw [List.mem_cons, mem_spanRows, mem_spanRows, spansFrom_of_latest h, spansFrom_of_none hkept]
    constructor
    · rintro ⟨hx, hle, hxto⟩
      by_cases hxfrom : x.minute < q.from_
      · left
        have hminute : x.minute = r.minute := le_antisymm (hmax x hx hxfrom) hle
        exact List.inj_on_of_nodup_map htidy.nodup hx hmem hminute
      · rw [not_lt] at hxfrom
        exact Or.inr ⟨List.mem_filter.2 ⟨hx, by simpa using hfrom.trans hxfrom⟩, hxfrom, hxto⟩
    · rintro (rfl | ⟨hx, hxfrom, hxto⟩)
      · exact ⟨hmem, le_rfl, hto⟩
      · exact ⟨(List.mem_filter.1 hx).1, (hlt.trans_le hxfrom).le, hxto⟩
  have hperm : (q.spanRows rows).Perm (r :: q.spanRows (kept rows cutoff)) :=
    (List.perm_ext_iff_of_nodup (hall.imp fun h heq => by rw [heq] at h; exact lt_irrefl _ h)
      (hrest.imp fun h heq => by rw [heq] at h; exact lt_irrefl _ h)).2 hiff
  exact hperm.eq_of_pairwise (fun a b _ _ hab hba => absurd (hab.trans hba) (lt_irrefl _)) hall hrest

theorem minuteFrom_le_firstMinute (h : cutoff ≤ q.from_) : minuteFrom cutoff ≤ q.firstMinute := by
  rw [firstMinute, minuteFrom_le_iff]
  exact h.trans (le_minuteFrom q.from_)

/-- A span that is not carried over the cutoff reaches no minute of the window. -/
theorem spanEnd_le_spanStart (htidy : Tidy rows) {r : MinuteRow}
    (h : latestBefore rows q.from_ = some r) (hr : r.minute < cutoff) (hfrom : cutoff ≤ q.from_)
    (hnot : carriedOver rows cutoff = false) :
    q.spanEnd (spanOf r ((q.spanRows (kept rows cutoff)).head?.map MinuteRow.minute)) ≤
      q.spanStart (spanOf r ((q.spanRows (kept rows cutoff)).head?.map MinuteRow.minute)) := by
  obtain ⟨hmem, hlt, hmax⟩ := latestBefore_some h
  have hfirst : minuteFrom cutoff ≤ q.firstMinute := minuteFrom_le_firstMinute hfrom
  refine le_trans ?_ (hfirst.trans (le_max_right _ _))
  have hlatest : latestBefore rows cutoff = some r :=
    latestBefore_eq_some htidy.nodup hmem hr fun r' hr' hlt' => hmax r' hr' (hlt'.trans_le hfrom)
  rw [carriedOver, hlatest, Option.any_some, Bool.and_eq_false_iff] at hnot
  rcases hnot with hrow | hcarries
  · -- the row of the first minute ends the span, if the window reaches that minute at all
    obtain ⟨x, hx⟩ := Option.ne_none_iff_exists'.1 (Option.isNone_eq_false_iff.1 hrow |>
      Option.isSome_iff_ne_none.1)
    have hxmem : x ∈ rows := List.mem_of_find?_eq_some hx
    have hxminute : x.minute = minuteFrom cutoff := load_minute hx
    have hbound : q.spanEnd (spanOf r ((q.spanRows (kept rows cutoff)).head?.map
        MinuteRow.minute)) ≤ (((q.spanRows (kept rows cutoff)).head?.map
          MinuteRow.minute).elim q.to_ fun next => min next q.to_) := by
      unfold spanEnd spanOf
      dsimp only
      cases r.carryUntil with
      | none => exact le_rfl
      | some carryUntil => exact min_le_left _ _
    refine hbound.trans ?_
    by_cases hto : q.to_ ≤ minuteFrom cutoff
    · cases (q.spanRows (kept rows cutoff)).head?.map MinuteRow.minute with
      | none => exact hto
      | some next => exact (min_le_right _ _).trans hto
    · rw [not_le] at hto
      have hxfrom : q.from_ ≤ x.minute := by
        by_contra hearly
        rw [not_le] at hearly
        have hle := hmax x hxmem hearly
        rw [hxminute] at hle
        exact absurd (hle.trans_lt hr) (not_lt.2 (le_minuteFrom cutoff))
      have hxspan : x ∈ q.spanRows (kept rows cutoff) := by
        refine mem_spanRows.2 ⟨List.mem_filter.2 ⟨hxmem, ?_⟩, spansFrom_le.trans hxfrom, ?_⟩
        · rw [hxminute, decide_eq_true_eq]
          exact le_minuteFrom cutoff
        · rw [hxminute]
          exact hto
      have hasc : Ascending (q.spanRows (kept rows cutoff)) :=
        ascending_spanRows (tidy_kept htidy cutoff).nodup
      cases hrows : q.spanRows (kept rows cutoff) with
      | nil =>
        rw [hrows] at hxspan
        cases hxspan
      | cons y ys =>
        rw [hrows] at hxspan hasc
        have hyx : y.minute ≤ x.minute := by
          rcases List.mem_cons.1 hxspan with rfl | hxspan
          · exact le_rfl
          · exact ((List.pairwise_cons.1 hasc).1 x hxspan).le
        rw [hxminute] at hyx
        exact (min_le_left _ _).trans hyx
  · -- the row has ended by then
    unfold carries at hcarries
    unfold spanEnd spanOf
    dsimp only
    cases huntil : r.carryUntil with
    | none =>
      rw [huntil] at hcarries
      cases hcarries
    | some carryUntil =>
      rw [huntil, Option.all_some, decide_eq_false_iff_not, not_lt] at hcarries
      exact (min_le_right _ _).trans hcarries

/-- A read that starts from the cutoff on needs none of the rows before it. -/
theorem filled_kept (htidy : Tidy rows) (hfrom : cutoff ≤ q.from_)
    (hnot : carriedOver rows cutoff = false) : q.filled (kept rows cutoff) = q.filled rows := by
  have hsame : q.spansFrom (kept rows cutoff) = q.spansFrom rows → cutoff ≤ q.spansFrom rows →
      q.filled (kept rows cutoff) = q.filled rows := fun hspans hle => by
    rw [filled, filled, grouped_kept hfrom, spans, spans, spanRows_kept hspans hle]
  cases hlatest : latestBefore rows q.from_ with
  | none =>
    have hkept : latestBefore (kept rows cutoff) q.from_ = none :=
      latestBefore_kept_of_lt fun r' hr' => by rw [hlatest] at hr'; cases hr'
    have hspans := spansFrom_of_none hlatest
    exact hsame (by rw [hspans, spansFrom_of_none hkept]) (by rw [hspans]; exact hfrom)
  | some r =>
    by_cases hr : cutoff ≤ r.minute
    · have hspans := spansFrom_of_latest hlatest
      have hkept := latestBefore_kept_of_le htidy.nodup hlatest hr
      exact hsame (by rw [hspans, spansFrom_of_latest hkept]) (by rw [hspans]; exact hr)
    · rw [not_le] at hr
      by_cases hto : r.minute < q.to_
      · have hend := spanEnd_le_spanStart htidy hlatest hr hfrom hnot
        rw [filled, filled, grouped_kept hfrom, spans, spans,
          spanRows_of_deleted htidy hlatest hr hfrom hto, lead, List.filter_cons]
        split
        · rw [List.foldl_cons]
          refine congrArg (fun buckets => List.foldl q.addCarried buckets _) ?_
          exact (if_pos hend).symm
        · rfl
      · have hempty : ∀ rows' : List MinuteRow, (∀ x ∈ q.spanRows rows', r.minute ≤ x.minute) →
            q.spanRows rows' = [] := fun rows' hge => by
          refine List.eq_nil_iff_forall_not_mem.2 fun x hx => ?_
          exact hto ((hge x hx).trans_lt (mem_spanRows.1 hx).2.2)
        have hall : q.spanRows rows = [] := hempty rows fun x hx => by
          rw [mem_spanRows, spansFrom_of_latest hlatest] at hx
          exact hx.2.1
        have hkept : q.spanRows (kept rows cutoff) = [] := hempty _ fun x hx => by
          have hx := of_decide_eq_true (List.mem_filter.1 (mem_spanRows.1 hx).1).2
          exact (hr.trans_le hx).le
        rw [filled, filled, grouped_kept hfrom, spans, spans, hall, hkept]

/-! ### The read that does need one -/

/-- The minute the last row is carried over to, as a window of its own. -/
def firstMinuteRead (cutoff : ℚ) : BucketQuery :=
  ⟨minuteFrom cutoff, minuteFrom cutoff + minuteMs, minuteMs⟩

/-- What that read says is what the rows say of its minute. -/
theorem startingAt_firstMinuteRead (htidy : Tidy rows) (cutoff : ℚ) :
    startingAt ((firstMinuteRead cutoff).minuteBuckets rows) (minuteFrom cutoff) =
      summaryAt rows (minuteFrom cutoff) := by
  have hwhole : (firstMinuteRead cutoff).Whole ⌈cutoff / minuteMs⌉ (⌈cutoff / minuteMs⌉ + 1) 1 := by
    refine ⟨rfl, ?_, ?_, Int.one_pos⟩
    · simp only [firstMinuteRead, minuteFrom]
      push_cast
      ring
    · simp [firstMinuteRead]
  have hkeyed := keyed_filled hwhole htidy.nodup htidy.aligned
  have hstart := startingAt_minuteBuckets (q := firstMinuteRead cutoff) minuteMs_pos hkeyed 0
  rw [Int.cast_zero, zero_mul, add_zero] at hstart
  refine hstart.trans ?_
  rw [bucketAt_filled hwhole htidy.nodup htidy.aligned (Int.le_refl 0) (by omega)]
  have hwindow : Finset.Ico (cutAt ⌈cutoff / minuteMs⌉ (⌈cutoff / minuteMs⌉ + 1) 1 0)
      (cutAt ⌈cutoff / minuteMs⌉ (⌈cutoff / minuteMs⌉ + 1) 1 (0 + 1)) = {⌈cutoff / minuteMs⌉} := by
    ext k
    simp only [cutAt, Finset.mem_Ico, Finset.mem_singleton]
    omega
  rw [hwindow, Finset.sum_singleton, minuteFrom]

/-- A row that is carried over is missed. -/
theorem firstMinuteRead_ne (htidy : Tidy rows) (hcarried : carriedOver rows cutoff = true) :
    (firstMinuteRead cutoff).minuteBuckets (kept rows cutoff) ≠
      (firstMinuteRead cutoff).minuteBuckets rows := by
  rw [carriedOver, Bool.and_eq_true, Option.isNone_iff_eq_none, Option.any_eq_true] at hcarried
  obtain ⟨hload, r, hlatest, hcarries⟩ := hcarried
  obtain ⟨hmem, hlt, hmax⟩ := latestBefore_some hlatest
  have hbefore : ∀ x ∈ rows, cutoff ≤ x.minute → minuteFrom cutoff ≤ x.minute := fun x hx hle => by
    obtain ⟨k, hk⟩ := htidy.aligned x hx
    rw [hk] at hle ⊢
    exact minuteFrom_le_iff.2 hle
  -- before the pruning the minute is known, at the row's last levels
  have hrows : summaryAt rows (minuteFrom cutoff) = r.carried := by
    have hlatest' : latestBefore rows (minuteFrom cutoff) = some r := by
      refine latestBefore_eq_some htidy.nodup hmem (hlt.trans_le (le_minuteFrom cutoff)) ?_
      intro x hx hxlt
      refine hmax x hx (not_le.1 fun hle => ?_)
      exact absurd hxlt (not_lt.2 (hbefore x hx hle))
    rw [summaryAt, hload, hlatest']
    exact if_pos hcarries
  -- after it nothing is
  have hkept : summaryAt (kept rows cutoff) (minuteFrom cutoff) = 0 := by
    have hload' : load (kept rows cutoff) (minuteFrom cutoff) = none := by
      refine List.find?_eq_none.2 fun x hx => ?_
      exact List.find?_eq_none.1 hload x (List.mem_filter.1 hx).1
    have hlatest' : latestBefore (kept rows cutoff) (minuteFrom cutoff) = none := by
      cases hfind : latestBefore (kept rows cutoff) (minuteFrom cutoff) with
      | none => rfl
      | some x =>
        obtain ⟨hx, hxlt, -⟩ := latestBefore_some hfind
        obtain ⟨hx, hle⟩ := List.mem_filter.1 hx
        exact absurd hxlt (not_lt.2 (hbefore x hx (of_decide_eq_true hle)))
    rw [summaryAt, hload', hlatest']
  intro heq
  have hsame := startingAt_firstMinuteRead htidy cutoff
  rw [← heq, startingAt_firstMinuteRead (tidy_kept htidy cutoff) cutoff, hkept, hrows] at hsame
  exact absurd (congrArg Prod.fst hsame).symm minuteMs_pos.ne'

end BucketQuery

open KeyMinutes BucketQuery

/-- In every recorded history, the pruning leaves every read of a key that starts from its cutoff on
    as it was exactly when no row before the cutoff is carried over it. -/
theorem prune_keeps_buckets_iff (p : Projector) (hp : Recorded p) (now : ℚ) (worker : String)
    (platform : RowPlatform) :
    (∀ q : BucketQuery, now - p.options.metricsRetentionMs ≤ q.from_ →
        q.minuteBuckets ((p.prune now).board.minutes worker platform).rows =
          q.minuteBuckets (p.board.minutes worker platform).rows) ↔
      carriedOver (p.board.minutes worker platform).rows (now - p.options.metricsRetentionMs) =
        false := by
  have htidy := hp.tidy worker platform
  constructor
  · intro hsame
    rw [← Bool.not_eq_true]
    intro hcarried
    exact firstMinuteRead_ne htidy hcarried (hsame _ (le_minuteFrom _))
  · intro hnot q hfrom
    have hfilled := filled_kept htidy hfrom hnot
    rw [minuteBuckets, minuteBuckets, ← hfilled]
    rfl

/-- A queue of two, half a minute after the start. -/
def twoQueued : EventEnvelope :=
  ⟨1, 30000, .queueChanged, some (.object [("depth", .number 2)])⟩

/-- A queue of three, two minutes later. -/
def threeQueued : EventEnvelope :=
  ⟨2, 150000, .queueChanged, some (.object [("depth", .number 3)])⟩

/-- The history of these, with no retention. -/
def queued (events : List EventEnvelope) : Projector :=
  Lib.run Projector.liveStep (.create ⟨false, 0⟩) (events.map .event)

theorem prune_keeps_buckets_threeQueued :
    BucketQuery.minuteBuckets ⟨120000, 240000, 60000⟩
        (((queued [twoQueued, threeQueued]).prune 120000).board.minutes "" .all).rows =
      BucketQuery.minuteBuckets ⟨120000, 240000, 60000⟩
        ((queued [twoQueued, threeQueued]).board.minutes "" .all).rows :=
  (prune_keeps_buckets_iff (queued [twoQueued, threeQueued])
    (.live (.event threeQueued) (.live (.event twoQueued) (.create ⟨false, 0⟩))) 120000 "" .all).2
    (by decide +kernel) ⟨120000, 240000, 60000⟩ (by decide +kernel)

/-- The queue still holds two after the pruning, and the read of it says nothing. -/
theorem prune_loses_twoQueued : ¬ ∀ p : Projector, Recorded p →
    ∀ (now : ℚ) (worker : String) (platform : RowPlatform) (q : BucketQuery),
      now - p.options.metricsRetentionMs ≤ q.from_ →
      q.minuteBuckets ((p.prune now).board.minutes worker platform).rows =
        q.minuteBuckets (p.board.minutes worker platform).rows := by
  intro hall
  have hrecorded : Recorded (queued [twoQueued]) := .live (.event twoQueued) (.create ⟨false, 0⟩)
  have hcarried : carriedOver ((queued [twoQueued]).board.minutes "" .all).rows
      (60000 - (queued [twoQueued]).options.metricsRetentionMs) = true := by decide +kernel
  exact firstMinuteRead_ne (hrecorded.tidy "" .all) hcarried
    (hall _ hrecorded 60000 "" .all _ (le_minuteFrom _))

end Simlock.History
