import Mathlib.Algebra.BigOperators.Fin
import Simlock.History.MinuteSteps
import Simlock.History.UsageSpans

/-! Usage read back in buckets is what the levels come to.

    A bucket has the rows of its minutes and the minutes carried into it, which is minute by minute
    what the rows say, and so what the timeline comes to over the bucket. Over all buckets that is
    what it comes to over the window, however the window is cut. -/

namespace Simlock.History

open Lib (Timeline Summary summaryGauge Levels)

namespace BucketQuery

variable {q : BucketQuery} {rows : List MinuteRow} {first last width : ℤ}

/-! ### The minutes of a bucket -/

theorem sum_list_comm {α M : Type} [AddCommMonoid M] (s : Finset ℤ) (f : ℤ → α → M) (l : List α) :
    ∑ k ∈ s, (l.map (f k)).sum = (l.map fun x => ∑ k ∈ s, f k x).sum := by
  induction l with
  | nil => simp
  | cons x l ih => simp only [List.map_cons, List.sum_cons, Finset.sum_add_distrib, ih]

/-- The minute at which a bucket begins, and the one before it ends. -/
def cutAt (first last width i : ℤ) : ℤ := min last (first + i * width)

/-- A number of minutes at some levels is that many times one. -/
theorem of_minutes (levels : Levels UsageValue) (n : ℕ) :
    (summaryGauge UsageValue).of levels (n * minuteMs) =
      n • (summaryGauge UsageValue).of levels minuteMs := by
  induction n with
  | zero => rw [Nat.cast_zero, zero_mul, (summaryGauge UsageValue).zero, zero_nsmul]
  | succ n ih =>
    have hlength : ((n + 1 : ℕ) : ℚ) * minuteMs = n * minuteMs + minuteMs := by
      push_cast
      ring
    rw [hlength, (summaryGauge UsageValue).add levels
      (mul_nonneg n.cast_nonneg minuteMs_pos.le) minuteMs_pos.le, ih, succ_nsmul]

theorem Whole.bucketOf (h : q.Whole first last width) (k : ℤ) :
    q.bucketOf (k * minuteMs) = ⌊((k - first : ℤ) : ℚ) / width⌋ := by
  have hdiv : (k * minuteMs - first * minuteMs) / (width * minuteMs) =
      ((k - first : ℤ) : ℚ) / width := by
    rw [← sub_mul, mul_div_mul_right _ _ minuteMs_pos.ne']
    push_cast
    rfl
  rw [BucketQuery.bucketOf, h.from_, h.bucketMs, hdiv]

theorem width_pos (h : q.Whole first last width) : (0 : ℚ) < width := by exact_mod_cast h.pos

/-- A minute is in the bucket its index says. -/
theorem bucketOf_eq_iff (h : q.Whole first last width) {k i : ℤ} :
    q.bucketOf (k * minuteMs) = i ↔ first + i * width ≤ k ∧ k < first + (i + 1) * width := by
  rw [h.bucketOf, Int.floor_eq_iff, le_div_iff₀ (width_pos h), div_lt_iff₀ (width_pos h)]
  constructor
  · rintro ⟨hle, hlt⟩
    constructor
    · have hle' : i * width ≤ k - first := by exact_mod_cast hle
      omega
    · have hlt' : k - first < (i + 1) * width := by exact_mod_cast hlt
      omega
  · rintro ⟨hle, hlt⟩
    have hle' : i * width ≤ k - first := by omega
    have hlt' : k - first < (i + 1) * width := by omega
    exact ⟨by exact_mod_cast hle', by exact_mod_cast hlt'⟩

/-! ### What the rows add to a bucket -/

theorem bucketAt_addGroup (buckets : Buckets) (group : ℤ × List MinuteRow) (i : ℤ) :
    bucketAt (addGroup buckets group) i =
      bucketAt buckets i + if group.1 = i then (group.2.map MinuteRow.summary).sum else 0 := by
  rw [addGroup, bucketAt_addTo, sum_summary]

theorem sum_filter {α M : Type} [AddCommMonoid M] (p : α → Prop) [DecidablePred p] (f : α → M)
    (l : List α) : ((l.filter fun x => p x).map f).sum = (l.map fun x => if p x then f x else 0).sum := by
  induction l with
  | nil => rfl
  | cons x l ih =>
    by_cases hx : p x
    · simp [hx, ih]
    · simp [hx, ih]

/-- The groups of the rows add the rows of the bucket. -/
theorem sum_grouped (rows : List MinuteRow) (i : ℤ) :
    ((q.grouped rows).map fun group =>
        if group.1 = i then (group.2.map MinuteRow.summary).sum else 0).sum =
      ((q.inWindow rows).map fun r => if q.bucketOf r.minute = i then r.summary else 0).sum := by
  have hfilter := sum_filter (fun r : MinuteRow => q.bucketOf r.minute = i) MinuteRow.summary
    (q.inWindow rows)
  rw [← hfilter, grouped, List.map_map]
  by_cases hi : i ∈ ((q.inWindow rows).map fun r => q.bucketOf r.minute).dedup
  · refine (sum_map_of_only hi (List.nodup_dedup _) fun index _ hne => ?_).trans (if_pos rfl)
    exact if_neg hne
  · refine (sum_map_of_none fun index hindex => ?_).trans ?_
    · exact if_neg fun heq : index = i => hi (heq ▸ hindex)
    have hnone : ((q.inWindow rows).filter fun r => q.bucketOf r.minute = i) = [] := by
      refine List.filter_eq_nil_iff.2 fun r hr heq => hi (List.mem_dedup.2 ?_)
      exact List.mem_map.2 ⟨r, hr, of_decide_eq_true heq⟩
    rw [hnone]
    rfl

/-- A row is in the bucket of its minute. -/
theorem sum_row_minutes (h : q.Whole first last width) {r : MinuteRow} (hr : r ∈ q.inWindow rows)
    {j : ℤ} (hj : r.minute = j * minuteMs) (i : ℤ) :
    ∑ k ∈ Finset.Ico (cutAt first last width i) (cutAt first last width (i + 1)),
        (if r.minute = k * minuteMs then r.summary else 0) =
      if q.bucketOf r.minute = i then r.summary else 0 := by
  have hlast := (of_decide_eq_true (List.mem_filter.1 hr).2).2
  rw [hj, h.to_, mul_minuteMs_lt] at hlast
  have hminute : ∀ k : ℤ, r.minute = k * minuteMs ↔ j = k := fun k => by
    rw [hj, mul_left_inj' minuteMs_pos.ne', Int.cast_inj]
  simp only [hminute, Finset.sum_ite_eq]
  refine if_congr ?_ rfl rfl
  rw [hj, bucketOf_eq_iff h, Finset.mem_Ico, cutAt, cutAt]
  omega

/-! ### What a span adds to a bucket -/

theorem figureOf_last (last : Option ℚ) {n : ℤ} (hn : 0 < n) :
    figureOf (last.map fun last => ⟨last, last * n * minuteMs⟩) =
      (last.getD 0 * (n * minuteMs), Lib.peakOf last (n * minuteMs)) := by
  have hpos : (0 : ℚ) < n * minuteMs := mul_pos (by exact_mod_cast hn) minuteMs_pos
  rw [Lib.peakOf_pos _ hpos]
  cases last with
  | none => simp only [Option.getD_none, zero_mul]; rfl
  | some last => simp only [Option.getD_some, ← mul_assoc]; rfl

/-- What a pass of the loop adds. -/
def addedAt (q : BucketQuery) (span : CarrySpan) (index : ℤ) : Summary UsageValue :=
  (q.spanMinutes span index).toNat • span.carried

theorem bucketAt_addSpanAt (span : CarrySpan) (buckets : Buckets) (index i : ℤ) :
    bucketAt (q.addSpanAt span buckets index) i =
      bucketAt buckets i + if index = i then q.addedAt span i else 0 := by
  unfold addSpanAt addedAt
  dsimp only
  by_cases hn : q.spanMinutes span index ≤ 0
  · rw [if_pos hn]
    by_cases hi : index = i
    · rw [if_pos hi, ← hi, Int.toNat_of_nonpos hn, zero_nsmul, add_zero]
    · rw [if_neg hi, add_zero]
  · rw [if_neg hn, bucketAt_addTo]
    by_cases hi : index = i
    · subst hi
      have hcast : ((q.spanMinutes span index).toNat : ℚ) = q.spanMinutes span index := by
        exact_mod_cast Int.toNat_of_nonneg (not_le.1 hn).le
      rw [if_pos rfl, if_pos rfl, CarrySpan.carried, ← of_minutes, hcast]
      exact congrArg (bucketAt buckets index + ·)
        (Prod.ext rfl (funext fun v => figureOf_last (span.lasts v) (not_le.1 hn)))
    · rw [if_neg hi, if_neg hi]

/-- A span that starts and ends with a minute. -/
structure WholeSpan (q : BucketQuery) (span : CarrySpan) (start stop : ℤ) : Prop where
  start : q.spanStart span = start * minuteMs
  stop : q.spanEnd span = stop * minuteMs

theorem spanMinutes_eq (h : q.Whole first last width) {span : CarrySpan} {start stop : ℤ}
    (hspan : q.WholeSpan span start stop) (i : ℤ) :
    q.spanMinutes span i = min stop (first + (i + 1) * width) - max start (first + i * width) := by
  have hbegin : q.from_ + i * q.bucketMs = ((first + i * width : ℤ) : ℚ) * minuteMs := by
    rw [h.from_, h.bucketMs]
    push_cast
    ring
  have hend : q.from_ + (i + 1) * q.bucketMs = ((first + (i + 1) * width : ℤ) : ℚ) * minuteMs := by
    rw [h.from_, h.bucketMs]
    push_cast
    ring
  have hmax : ∀ a b : ℤ, max ((a : ℚ) * minuteMs) (b * minuteMs) = ((max a b : ℤ) : ℚ) * minuteMs :=
    fun a b => by rw [← max_mul_of_nonneg _ _ minuteMs_pos.le, Int.cast_max]
  have hmin : ∀ a b : ℤ, min ((a : ℚ) * minuteMs) (b * minuteMs) = ((min a b : ℤ) : ℚ) * minuteMs :=
    fun a b => by rw [← min_mul_of_nonneg _ _ minuteMs_pos.le, Int.cast_min]
  unfold spanMinutes
  dsimp only
  rw [hbegin, hend, hspan.start, hspan.stop, minute_div, Int.ceil_intCast, hmax, hmin, ← sub_mul,
    ← Int.cast_sub, minute_div, Int.ceil_intCast]

/-- The loop passes every bucket with a minute of the span. -/
theorem mem_spanIndices (h : q.Whole first last width) {span : CarrySpan} {start stop : ℤ}
    (hspan : q.WholeSpan span start stop) {i : ℤ} (hi : 0 < q.spanMinutes span i) :
    i ∈ q.spanIndices span := by
  rw [spanMinutes_eq h hspan] at hi
  have hbegin : first + i * width < stop := by omega
  have hstart : start < first + (i + 1) * width := by omega
  have hlow : q.bucketOf (q.spanStart span) ≤ i := by
    have hlt : q.bucketOf (q.spanStart span) < i + 1 := by
      rw [hspan.start, h.bucketOf, Int.floor_lt, div_lt_iff₀ (width_pos h)]
      have hlt' : start - first < (i + 1) * width := by omega
      exact_mod_cast hlt'
    omega
  have hhigh : i < ⌈(q.spanEnd span - q.from_) / q.bucketMs⌉ := by
    have hdiv : (stop * minuteMs - first * minuteMs) / (width * minuteMs) =
        ((stop - first : ℤ) : ℚ) / width := by
      rw [← sub_mul, mul_div_mul_right _ _ minuteMs_pos.ne']
      push_cast
      rfl
    rw [hspan.stop, h.from_, h.bucketMs, hdiv, Int.lt_ceil, lt_div_iff₀ (width_pos h)]
    have hlt' : i * width < stop - first := by omega
    exact_mod_cast hlt'
  unfold spanIndices
  dsimp only
  refine List.mem_map.2 ⟨(i - q.bucketOf (q.spanStart span)).toNat, List.mem_range.2 ?_, ?_⟩
  · omega
  · rw [Int.toNat_of_nonneg (by omega)]
    omega

theorem nodup_spanIndices (span : CarrySpan) : (q.spanIndices span).Nodup := by
  unfold spanIndices
  dsimp only
  refine (List.nodup_range).map fun a b hab => ?_
  omega

theorem bucketAt_addCarried (h : q.Whole first last width) {span : CarrySpan} {start stop : ℤ}
    (hspan : q.WholeSpan span start stop) (buckets : Buckets) (i : ℤ) :
    bucketAt (q.addCarried buckets span) i = bucketAt buckets i + q.addedAt span i := by
  have hnone : q.spanMinutes span i ≤ 0 → q.addedAt span i = 0 := fun hle => by
    rw [addedAt, Int.toNat_of_nonpos hle, zero_nsmul]
  unfold addCarried
  by_cases hempty : q.spanEnd span ≤ q.spanStart span
  · rw [hspan.start, hspan.stop, mul_minuteMs_le] at hempty
    rw [hspan.start, hspan.stop, if_pos (mul_minuteMs_le.2 hempty), hnone, add_zero]
    rw [spanMinutes_eq h hspan]
    omega
  · rw [if_neg hempty, bucketAt_foldl _ _ fun index _ buckets => bucketAt_addSpanAt span buckets index i]
    congr 1
    by_cases hi : i ∈ q.spanIndices span
    · rw [sum_map_of_only hi (nodup_spanIndices span) fun index _ hne => if_neg hne, if_pos rfl]
    · have hother : ∀ index ∈ q.spanIndices span, (if index = i then q.addedAt span i else 0) = 0 :=
        fun index hindex => if_neg fun heq : index = i => hi (heq ▸ hindex)
      rw [sum_map_of_none hother, hnone]
      by_contra hpos
      exact hi (mem_spanIndices h hspan (not_le.1 hpos))

/-- Minute by minute. -/
theorem sum_span_minutes (h : q.Whole first last width) {span : CarrySpan} {start stop : ℤ}
    (hspan : q.WholeSpan span start stop) (hstop : stop ≤ last) (i : ℤ) :
    ∑ k ∈ Finset.Ico (cutAt first last width i) (cutAt first last width (i + 1)),
        (if q.covers span (k * minuteMs) then span.carried else 0) = q.addedAt span i := by
  have hcovers : ∀ k : ℤ, q.covers span (k * minuteMs) ↔ start ≤ k ∧ k < stop := fun k => by
    rw [covers, hspan.start, hspan.stop, mul_minuteMs_le, mul_minuteMs_lt]
  have hmeet : (Finset.Ico (cutAt first last width i) (cutAt first last width (i + 1))).filter
      (fun k => start ≤ k ∧ k < stop) =
        Finset.Ico (max start (first + i * width)) (min stop (first + (i + 1) * width)) := by
    ext k
    rw [Finset.mem_filter, Finset.mem_Ico, Finset.mem_Ico, cutAt, cutAt]
    omega
  simp only [hcovers]
  rw [← Finset.sum_filter, hmeet, Finset.sum_const, Int.card_Ico, addedAt, spanMinutes_eq h hspan]

/-! ### What a bucket has -/

/-- A span starts with a minute of the window and ends with one, or with the window. -/
theorem wholeSpan_of_mem (h : q.Whole first last width)
    (haligned : ∀ r ∈ rows, ∃ j : ℤ, r.minute = j * minuteMs)
    (hnodup : (rows.map MinuteRow.minute).Nodup) {span : CarrySpan} (hspan : span ∈ q.spans rows) :
    ∃ start stop, q.WholeSpan span start stop ∧ first ≤ start ∧ stop ≤ last := by
  have hlead := mem_spans hspan
  obtain ⟨r, hr, hof⟩ := mem_lead hlead
  obtain ⟨j, hj⟩ := haligned r (mem_spanRows.1 hr).1
  have hminute : span.minute = j * minuteMs := by rw [hof, ← hj]; rfl
  have hmin : ∀ a b : ℤ, min ((a : ℚ) * minuteMs) (b * minuteMs) = ((min a b : ℤ) : ℚ) * minuteMs :=
    fun a b => by rw [← min_mul_of_nonneg _ _ minuteMs_pos.le, Int.cast_min]
  have hstart : q.spanStart span = ((max (j + 1) first : ℤ) : ℚ) * minuteMs := by
    have hnext : span.minute + minuteMs = ((j + 1 : ℤ) : ℚ) * minuteMs := by
      rw [hminute]
      push_cast
      ring
    rw [spanStart, hnext, h.firstMinute, ← max_mul_of_nonneg _ _ minuteMs_pos.le, Int.cast_max]
  have hbound : ∃ stop : ℤ,
      span.next.elim q.to_ (fun next => min next q.to_) = stop * minuteMs ∧ stop ≤ last := by
    cases hnext : span.next with
    | none => exact ⟨last, h.to_, le_rfl⟩
    | some next =>
      obtain ⟨r', hr', rfl, -⟩ := next_of_mem (ascending_spanRows hnodup) hlead hnext
      obtain ⟨j', hj'⟩ := haligned r' (mem_spanRows.1 hr').1
      refine ⟨min j' last, ?_, min_le_right _ _⟩
      rw [Option.elim_some, hj', h.to_, hmin]
  obtain ⟨stop, hstop, hle⟩ := hbound
  have hend : ∃ stop : ℤ, q.spanEnd span = stop * minuteMs ∧ stop ≤ last := by
    unfold spanEnd
    dsimp only
    cases span.carryUntil with
    | none => exact ⟨stop, hstop, hle⟩
    | some carryUntil =>
      obtain ⟨j', hj'⟩ := minuteOf_eq carryUntil
      refine ⟨min stop j', ?_, (min_le_left _ _).trans hle⟩
      rw [Option.elim_some, hstop, hj', hmin]
  obtain ⟨stop', hstop', hle'⟩ := hend
  exact ⟨_, stop', ⟨hstart, hstop'⟩, le_max_right _ _, hle'⟩

section

variable (h : q.Whole first last width) (hnodup : (rows.map MinuteRow.minute).Nodup)
  (haligned : ∀ r ∈ rows, ∃ j : ℤ, r.minute = j * minuteMs)

include h hnodup haligned

/-- A bucket has what the rows say of its minutes. -/
theorem bucketAt_filled {i : ℤ} (hi : 0 ≤ i) (hle : first ≤ last) :
    bucketAt (q.filled rows) i =
      ∑ k ∈ Finset.Ico (cutAt first last width i) (cutAt first last width (i + 1)),
        KeyMinutes.summaryAt rows (k * minuteMs) := by
  have hgroups := bucketAt_foldl (f := addGroup) (i := i) (q.grouped rows) []
    fun group _ buckets => bucketAt_addGroup buckets group i
  have hspans : ∀ buckets, bucketAt ((q.spans rows).foldl q.addCarried buckets) i =
      bucketAt buckets i + ((q.spans rows).map fun span => q.addedAt span i).sum := fun buckets => by
    refine bucketAt_foldl _ _ fun span hspan buckets => ?_
    obtain ⟨start, stop, hwhole, -, -⟩ := wholeSpan_of_mem h haligned hnodup hspan
    exact bucketAt_addCarried h hwhole buckets i
  have hfirst : ∀ k ∈ Finset.Ico (cutAt first last width i) (cutAt first last width (i + 1)),
      first ≤ k ∧ k < last := fun k hk => by
    have hmul : 0 ≤ i * width := mul_nonneg hi h.pos.le
    rw [Finset.mem_Ico, cutAt, cutAt] at hk
    omega
  have htaken := Finset.sum_congr (Eq.refl (Finset.Ico (cutAt first last width i)
    (cutAt first last width (i + 1)))) fun k hk =>
      taken_eq h (hfirst k hk).1 (hfirst k hk).2 hnodup haligned
  rw [← htaken, Finset.sum_add_distrib, sum_list_comm, sum_list_comm, filled, hspans, hgroups,
    sum_grouped]
  have hrows : ((q.inWindow rows).map fun r => if q.bucketOf r.minute = i then r.summary else 0) =
      (q.inWindow rows).map fun r =>
        ∑ k ∈ Finset.Ico (cutAt first last width i) (cutAt first last width (i + 1)),
          if r.minute = k * minuteMs then r.summary else 0 := by
    refine List.map_congr_left fun r hr => ?_
    obtain ⟨j, hj⟩ := haligned r (List.mem_filter.1 hr).1
    exact (sum_row_minutes h hr hj i).symm
  have hcarried : ((q.spans rows).map fun span => q.addedAt span i) =
      (q.spans rows).map fun span =>
        ∑ k ∈ Finset.Ico (cutAt first last width i) (cutAt first last width (i + 1)),
          if q.covers span (k * minuteMs) then span.carried else 0 := by
    refine List.map_congr_left fun span hspan => ?_
    obtain ⟨start, stop, hwhole, -, hstop⟩ := wholeSpan_of_mem h haligned hnodup hspan
    exact (sum_span_minutes h hwhole hstop i).symm
  rw [hrows, hcarried]
  exact congrArg (· + _) (zero_add _)

/-- Only the buckets of the window are there, and each once. -/
theorem keyed_filled : Keyed (fun i => 0 ≤ i ∧ first + i * width < last) (q.filled rows) := by
  have hgroups : Keyed (fun i => 0 ≤ i ∧ first + i * width < last)
      ((q.grouped rows).foldl addGroup []) := by
    refine List.foldlRecOn _ _ (Keyed.nil _) fun buckets hkeyed group hgroup => ?_
    refine hkeyed.addTo ?_ _ _
    obtain ⟨index, hindex, rfl⟩ := List.mem_map.1 hgroup
    obtain ⟨r, hr, rfl⟩ := List.mem_map.1 (List.mem_dedup.1 hindex)
    obtain ⟨hmem, hwindow⟩ := List.mem_filter.1 hr
    obtain ⟨j, hj⟩ := haligned r hmem
    rw [decide_eq_true_eq, hj, h.from_, h.to_, mul_minuteMs_le, mul_minuteMs_lt] at hwindow
    have hbucket := (bucketOf_eq_iff h (k := j)).1 rfl
    rw [← hj] at hbucket
    dsimp only
    refine ⟨?_, by omega⟩
    rw [hj, h.bucketOf]
    exact Int.floor_nonneg.2 (div_nonneg (by exact_mod_cast sub_nonneg.2 hwindow.1) (width_pos h).le)
  refine List.foldlRecOn _ _ hgroups fun buckets hkeyed span hspan => ?_
  obtain ⟨start, stop, hwhole, hstart, hstop⟩ := wholeSpan_of_mem h haligned hnodup hspan
  unfold addCarried
  split
  · exact hkeyed
  refine List.foldlRecOn _ _ hkeyed fun buckets hkeyed index hindex => ?_
  unfold addSpanAt
  dsimp only
  split
  · exact hkeyed
  · rename_i hpos
    refine hkeyed.addTo ⟨?_, ?_⟩ _ _
    · obtain ⟨n, -, rfl⟩ := List.mem_map.1 hindex
      have hlow : 0 ≤ q.bucketOf (q.spanStart span) := by
        rw [hwhole.start, h.bucketOf]
        exact Int.floor_nonneg.2 (div_nonneg (by exact_mod_cast sub_nonneg.2 hstart) (width_pos h).le)
      omega
    · rw [spanMinutes_eq h hwhole] at hpos
      omega

end

/-! ### What a read says -/

/-- What the bucket that starts at a time says, nothing without one. -/
def startingAt (buckets : List MinuteBucket) (start : ℚ) : Summary UsageValue :=
  (buckets.find? fun b => b.start = start).elim 0 MinuteBucket.summary

/-- What all of them say together. -/
def totalOf (buckets : List MinuteBucket) : Summary UsageValue :=
  (buckets.map MinuteBucket.summary).sum

def bucketFrom (q : BucketQuery) (b : ℤ × Accumulator) : MinuteBucket :=
  { start := q.from_ + b.1 * q.bucketMs, knownMs := b.2.knownMs, figures := b.2.figures }

theorem mem_minuteBuckets {bucket : MinuteBucket} :
    bucket ∈ q.minuteBuckets rows ↔ ∃ b ∈ q.filled rows, q.bucketFrom b = bucket := by
  rw [minuteBuckets, List.mem_map]
  simp only [List.mem_mergeSort]
  rfl

theorem ascending_minuteBuckets (hpos : 0 < q.bucketMs) {p : ℤ → Prop}
    (hkeyed : Keyed p (q.filled rows)) :
    ((q.minuteBuckets rows).map MinuteBucket.start).Pairwise (· < ·) := by
  have hsorted : ((q.filled rows).mergeSort fun b b' => b.1 ≤ b'.1).Pairwise
      fun b b' => decide (b.1 ≤ b'.1) = true := by
    refine List.pairwise_mergeSort (fun a b c hab hbc => ?_) (fun a b => ?_) _
    · rw [decide_eq_true_eq] at hab hbc ⊢
      exact hab.trans hbc
    · simpa using le_total a.1 b.1
  have hindices : (((q.filled rows).mergeSort fun b b' => b.1 ≤ b'.1).map Prod.fst).Nodup :=
    ((List.mergeSort_perm _ _).map Prod.fst).nodup_iff.2 hkeyed.nodup
  rw [minuteBuckets, List.map_map, List.pairwise_map]
  refine (hsorted.and (List.pairwise_map.1 hindices)).imp fun {b b'} hb => ?_
  have hlt : (b.1 : ℚ) < b'.1 := by exact_mod_cast lt_of_le_of_ne (of_decide_eq_true hb.1) hb.2
  have hmul := mul_lt_mul_of_pos_right hlt hpos
  exact add_lt_add_right hmul q.from_

theorem startingAt_minuteBuckets (hpos : 0 < q.bucketMs) {p : ℤ → Prop}
    (hkeyed : Keyed p (q.filled rows)) (i : ℤ) :
    startingAt (q.minuteBuckets rows) (q.from_ + i * q.bucketMs) = bucketAt (q.filled rows) i := by
  unfold startingAt bucketAt
  cases hfind : (q.filled rows).find? fun b => b.1 = i with
  | some b =>
    have hi : b.1 = i := by simpa using List.find?_some hfind
    have hnodup : ((q.minuteBuckets rows).map MinuteBucket.start).Nodup :=
      (ascending_minuteBuckets hpos hkeyed).imp fun h => h.ne
    have hmem : q.bucketFrom b ∈ q.minuteBuckets rows :=
      mem_minuteBuckets.2 ⟨b, List.mem_of_find?_eq_some hfind, rfl⟩
    have hbucket := Lib.find_key_eq_some hnodup hmem
    have hstart : (q.bucketFrom b).start = q.from_ + i * q.bucketMs := by rw [← hi]; rfl
    rw [hstart] at hbucket
    rw [hbucket]
    rfl
  | none =>
    have hnone : (q.minuteBuckets rows).find? (fun b => b.start = q.from_ + i * q.bucketMs) = none := by
      refine List.find?_eq_none.2 fun bucket hbucket heq => ?_
      obtain ⟨b, hb, rfl⟩ := mem_minuteBuckets.1 hbucket
      have hstart : q.from_ + b.1 * q.bucketMs = q.from_ + i * q.bucketMs := of_decide_eq_true heq
      have hi : b.1 = i := by
        have hmul := mul_right_cancel₀ hpos.ne' (add_left_cancel hstart)
        exact_mod_cast hmul
      exact List.find?_eq_none.1 hfind b hb (decide_eq_true hi)
    rw [hnone]
    rfl

theorem bucketAt_eq_sum {p : ℤ → Prop} {buckets : Buckets} (hkeyed : Keyed p buckets) (i : ℤ) :
    bucketAt buckets i = (buckets.map fun b => if b.1 = i then b.2.summary else 0).sum := by
  unfold bucketAt
  cases hfind : buckets.find? fun b => b.1 = i with
  | some b =>
    have hi : b.1 = i := by simpa using List.find?_some hfind
    have hb := List.mem_of_find?_eq_some hfind
    have hother : ∀ b' ∈ buckets, b' ≠ b → (if b'.1 = i then b'.2.summary else 0) = 0 :=
      fun b' hb' hne => if_neg fun heq =>
        hne (List.inj_on_of_nodup_map hkeyed.nodup hb' hb (heq.trans hi.symm))
    rw [sum_map_of_only hb hkeyed.nodup.of_map hother, if_pos hi]
    rfl
  | none =>
    refine (sum_map_of_none fun b hb => if_neg fun heq => ?_).symm
    exact List.find?_eq_none.1 hfind b hb (decide_eq_true heq)

/-- All buckets together have what is in the buckets of some indices with all of theirs. -/
theorem totalOf_minuteBuckets {p : ℤ → Prop} (hkeyed : Keyed p (q.filled rows)) {s : Finset ℤ}
    (hs : ∀ i, p i → i ∈ s) :
    totalOf (q.minuteBuckets rows) = ∑ i ∈ s, bucketAt (q.filled rows) i := by
  have hperm : totalOf (q.minuteBuckets rows) =
      ((q.filled rows).map fun b => b.2.summary).sum := by
    rw [totalOf, minuteBuckets, List.map_map]
    exact ((List.mergeSort_perm _ _).map _).sum_eq
  have hsum := Finset.sum_congr (Eq.refl s) fun i _ => bucketAt_eq_sum hkeyed i
  rw [hperm, hsum, sum_list_comm]
  refine congrArg List.sum (List.map_congr_left fun b hb => ?_)
  rw [Finset.sum_ite_eq, if_pos (hs _ (hkeyed.index b hb))]

/-! ### Exactness -/

/-- A window and a width of whole minutes. -/
structure MinuteAligned (q : BucketQuery) : Prop where
  from_ : minuteOf q.from_ = q.from_
  to_ : minuteOf q.to_ = q.to_
  bucketMs : minuteOf q.bucketMs = q.bucketMs
  pos : 0 < q.bucketMs
  ordered : q.from_ ≤ q.to_

/-- Each bucket says what the levels come to over it, and all of them over the window. -/
structure Exact (q : BucketQuery) (rows : List MinuteRow) (tl : Timeline UsageValue) : Prop where
  bucket : ∀ i : ℕ, q.from_ + i * q.bucketMs < q.to_ →
    startingAt (q.minuteBuckets rows) (q.from_ + i * q.bucketMs) =
      tl.total (summaryGauge UsageValue) (q.from_ + i * q.bucketMs)
        (min q.to_ (q.from_ + (i + 1) * q.bucketMs))
  listed : ∀ b ∈ q.minuteBuckets rows, ∃ i : ℕ, b.start = q.from_ + i * q.bucketMs ∧ b.start < q.to_
  ascending : ((q.minuteBuckets rows).map MinuteBucket.start).Pairwise (· < ·)
  total : totalOf (q.minuteBuckets rows) = tl.total (summaryGauge UsageValue) q.from_ q.to_

theorem MinuteAligned.whole (h : q.MinuteAligned) :
    ∃ first last width, q.Whole first last width ∧ first ≤ last := by
  obtain ⟨first, hfirst⟩ := minuteOf_eq q.from_
  obtain ⟨last, hlast⟩ := minuteOf_eq q.to_
  obtain ⟨width, hwidth⟩ := minuteOf_eq q.bucketMs
  rw [h.from_] at hfirst
  rw [h.to_] at hlast
  rw [h.bucketMs] at hwidth
  have hpos := h.pos
  have hle := h.ordered
  rw [hfirst, hlast, mul_minuteMs_le] at hle
  rw [hwidth] at hpos
  have hwidthPos : (0 : ℚ) < width := pos_of_mul_pos_left hpos minuteMs_pos.le
  exact ⟨first, last, width, ⟨hfirst, hlast, hwidth, by exact_mod_cast hwidthPos⟩, hle⟩

variable {state : KeyState} {tl : Timeline UsageValue}

/-- Minute by minute. -/
theorem total_minutes (hfollows : Follows rows state tl) {a b : ℤ} (hab : a ≤ b) :
    tl.total (summaryGauge UsageValue) (a * minuteMs) (b * minuteMs) =
      ∑ k ∈ Finset.Ico a b, KeyMinutes.summaryAt rows (k * minuteMs) := by
  have hnext : ∀ k : ℤ, ((k + 1 : ℤ) : ℚ) * minuteMs = k * minuteMs + minuteMs := fun k => by
    push_cast
    ring
  have hparts := tl.total_parts (g := summaryGauge UsageValue)
    (fun k : ℤ => (k : ℚ) * minuteMs)
    (fun k => by
      rw [hnext]
      exact le_add_of_nonneg_right minuteMs_pos.le) hab
  rw [hparts]
  refine Finset.sum_congr rfl fun k _ => ?_
  rw [hnext, hfollows.minutes k]

theorem cutAt_le (hpos : 0 < width) (i : ℤ) :
    cutAt first last width i ≤ cutAt first last width (i + 1) := by
  have hmul : (i + 1) * width = i * width + width := by ring
  rw [cutAt, cutAt]
  omega

theorem bucketAt_total (h : q.Whole first last width) (hle : first ≤ last)
    (hfollows : Follows rows state tl) {i : ℤ} (hi : 0 ≤ i) :
    bucketAt (q.filled rows) i =
      tl.total (summaryGauge UsageValue) (cutAt first last width i * minuteMs)
        (cutAt first last width (i + 1) * minuteMs) := by
  rw [bucketAt_filled h hfollows.nodup hfollows.aligned hi hle,
    total_minutes hfollows (cutAt_le h.pos i)]

theorem exact_of_follows (hq : q.MinuteAligned) (hfollows : Follows rows state tl) :
    q.Exact rows tl := by
  obtain ⟨first, last, width, h, hle⟩ := hq.whole
  have hkeyed := keyed_filled h hfollows.nodup hfollows.aligned
  have hbegin : ∀ i : ℤ, q.from_ + i * q.bucketMs = ((first + i * width : ℤ) : ℚ) * minuteMs :=
    fun i => by
      rw [h.from_, h.bucketMs]
      push_cast
      ring
  refine ⟨fun i hi => ?_, fun b hb => ?_, ascending_minuteBuckets hq.pos hkeyed, ?_⟩
  · have hstart := startingAt_minuteBuckets hq.pos hkeyed (i : ℤ)
    have hend := hbegin (i + 1)
    have hfrom := hbegin i
    rw [Int.cast_natCast] at hstart hfrom
    push_cast at hend
    rw [hfrom, h.to_, mul_minuteMs_lt] at hi
    have hcut : cutAt first last width i = first + i * width := min_eq_right hi.le
    have hcut' : min q.to_ (q.from_ + ((i : ℚ) + 1) * q.bucketMs) =
        (cutAt first last width (i + 1) : ℤ) * minuteMs := by
      rw [cutAt, Int.cast_min, min_mul_of_nonneg _ _ minuteMs_pos.le, h.to_, hend]
      push_cast
      rfl
    rw [hstart, bucketAt_total h hle hfollows i.cast_nonneg, hcut', hcut, ← hfrom]
  · obtain ⟨b, hfilled, rfl⟩ := mem_minuteBuckets.1 hb
    obtain ⟨hnonneg, hlt⟩ := hkeyed.index b hfilled
    refine ⟨b.1.toNat, ?_, ?_⟩
    · have hcast : ((b.1.toNat : ℕ) : ℚ) = b.1 := by exact_mod_cast Int.toNat_of_nonneg hnonneg
      rw [hcast]
      rfl
    · have hstart : (q.bucketFrom b).start = ((first + b.1 * width : ℤ) : ℚ) * minuteMs := hbegin b.1
      rw [hstart, h.to_]
      exact mul_minuteMs_lt.2 hlt
  · -- as many buckets as the window has minutes are enough
    have hmul : last - first ≤ (last - first) * width :=
      le_mul_of_one_le_right (sub_nonneg.2 hle) h.pos
    have hindices : ∀ i, (0 ≤ i ∧ first + i * width < last) → i ∈ Finset.Ico 0 (last - first) :=
      fun i hi => by
        have hmono : i ≤ i * width := le_mul_of_one_le_right hi.1 h.pos
        rw [Finset.mem_Ico]
        omega
    have hparts := tl.total_parts (g := summaryGauge UsageValue)
      (fun i => (cutAt first last width i : ℚ) * minuteMs)
      (fun i => mul_minuteMs_le.2 (cutAt_le h.pos i)) (sub_nonneg.2 hle)
    have hzero : cutAt first last width 0 = first := by
      rw [cutAt]
      omega
    have hfull : cutAt first last width (last - first) = last := by
      rw [cutAt]
      omega
    rw [hzero, hfull, ← h.from_, ← h.to_] at hparts
    rw [totalOf_minuteBuckets hkeyed hindices, hparts]
    refine Finset.sum_congr rfl fun i hi => ?_
    exact bucketAt_total h hle hfollows (Finset.mem_Ico.1 hi).1

end BucketQuery

def heldThenCut : List UsageOp := [.step .leasesHeld 2 30000, .cut 90000]

def cutAtOnce : List UsageOp := [.step .leasesHeld 5 60000, .cut 60000]

end Simlock.History
