import Mathlib.Algebra.BigOperators.Group.List.Basic
import Simlock.History.MinuteTimeline

/-! Usage read back in buckets.

    The rows of the window are summed by bucket. A row after which minutes are missing is carried
    into them, until the next row, the end of the window or its `carryUntil`, bucket by bucket. The
    rows of the window and the last one before it are enough for that.

    What a bucket comes to is the sum of what was added to it, in any order. -/

namespace Simlock.History

open Lib (Summary summaryGauge Peak)

structure BucketFigure where
  peak : ℚ
  integral : ℚ
  deriving DecidableEq

structure Accumulator where
  knownMs : ℚ
  figures : UsageValue → Option BucketFigure

structure MinuteBucket where
  start : ℚ
  knownMs : ℚ
  figures : UsageValue → Option BucketFigure

structure BucketQuery where
  from_ : ℚ
  to_ : ℚ
  bucketMs : ℚ

/-- A row, with the minute of the one after it. -/
structure CarrySpan where
  minute : ℚ
  carryUntil : Option ℚ
  next : Option ℚ
  lasts : UsageValue → Option ℚ

abbrev Buckets := List (ℤ × Accumulator)

def mergeFigure (existing added : Option BucketFigure) : Option BucketFigure :=
  match added with
  | none => existing
  | some added =>
    match existing with
    | none => some added
    | some existing =>
      some
        { integral := existing.integral + added.integral
          peak := max existing.peak added.peak }

/-- `add`. -/
def addTo (buckets : Buckets) (index : ℤ) (knownMs : ℚ) (figure : UsageValue → Option BucketFigure) :
    Buckets :=
  let bucket : Accumulator :=
    ((buckets.find? fun b => b.1 = index).map Prod.snd).getD ⟨0, fun _ => none⟩
  Lib.upsert Prod.fst
    (index,
      { knownMs := bucket.knownMs + knownMs
        figures := fun value => mergeFigure (bucket.figures value) (figure value) })
    buckets

namespace BucketQuery

variable (q : BucketQuery)

/-- `CAST((minute - from) / bucketMs AS INTEGER)`, of a minute from `from` on. -/
def bucketOf (minute : ℚ) : ℤ := ⌊(minute - q.from_) / q.bucketMs⌋

def inWindow (rows : List MinuteRow) : List MinuteRow :=
  rows.filter fun r => q.from_ ≤ r.minute ∧ r.minute < q.to_

/-- `GROUP BY bucket`. -/
def grouped (rows : List MinuteRow) : List (ℤ × List MinuteRow) :=
  (((q.inWindow rows).map fun r => q.bucketOf r.minute).dedup).map fun index =>
    (index, (q.inWindow rows).filter fun r => q.bucketOf r.minute = index)

/-- `MAX(peak)` and `SUM(integral)`, nothing of no figures. -/
def aggregateOf (figures : List Figure) : Option BucketFigure :=
  (figures.map Figure.peak).max?.map fun peak =>
    { peak := peak, integral := (figures.map Figure.integral).sum }

/-- The rows without the value are skipped. -/
def aggregate (rows : List MinuteRow) (value : UsageValue) : Option BucketFigure :=
  aggregateOf (rows.filterMap fun r => r.figures value)

def addGroup (buckets : Buckets) (group : ℤ × List MinuteRow) : Buckets :=
  addTo buckets group.1 (group.2.map MinuteRow.knownMs).sum (aggregate group.2)

/-- `LEAD(minute) OVER (ORDER BY minute)`, of rows in that order. -/
def lead : List MinuteRow → List CarrySpan
  | [] => []
  | row :: rest =>
    { minute := row.minute
      carryUntil := row.carryUntil
      next := rest.head?.map MinuteRow.minute
      lasts := fun value => (row.figures value).bind Figure.last } :: lead rest

/-- The last minute with a row before the window, or else where the window starts. -/
def spansFrom (rows : List MinuteRow) : ℚ :=
  ((rows.filter fun r => r.minute < q.from_).map MinuteRow.minute).max?.getD q.from_

def spanRows (rows : List MinuteRow) : List MinuteRow :=
  (rows.filter fun r => q.spansFrom rows ≤ r.minute ∧ r.minute < q.to_).mergeSort
    fun r r' => r.minute ≤ r'.minute

def spans (rows : List MinuteRow) : List CarrySpan :=
  (lead (q.spanRows rows)).filter fun span =>
    span.next.all fun next => span.minute + minuteMs < next

def firstMinute : ℚ := ⌈q.from_ / minuteMs⌉ * minuteMs

def spanStart (span : CarrySpan) : ℚ := max (span.minute + minuteMs) q.firstMinute

def spanEnd (span : CarrySpan) : ℚ :=
  let bound := span.next.elim q.to_ fun next => min next q.to_
  span.carryUntil.elim bound fun carryUntil => min bound (minuteOf carryUntil)

/-- The indices of the loop over the buckets a span reaches: from the one of its start on, while
    they begin before its end. -/
def spanIndices (span : CarrySpan) : List ℤ :=
  let first := q.bucketOf (q.spanStart span)
  let count := (⌈(q.spanEnd span - q.from_) / q.bucketMs⌉ - first).toNat
  (List.range count).map fun (i : ℕ) => first + (i : ℤ)

def spanMinutes (span : CarrySpan) (index : ℤ) : ℤ :=
  let first := max (q.spanStart span) (⌈(q.from_ + index * q.bucketMs) / minuteMs⌉ * minuteMs)
  ⌈(min (q.spanEnd span) (q.from_ + (index + 1) * q.bucketMs) - first) / minuteMs⌉

def addSpanAt (span : CarrySpan) (buckets : Buckets) (index : ℤ) : Buckets :=
  let minutes := q.spanMinutes span index
  if minutes ≤ 0 then buckets
  else
    addTo buckets index (minutes * minuteMs) fun value =>
      (span.lasts value).map fun last =>
        { integral := last * minutes * minuteMs, peak := last }

def addCarried (buckets : Buckets) (span : CarrySpan) : Buckets :=
  if q.spanEnd span ≤ q.spanStart span then buckets
  else (q.spanIndices span).foldl (q.addSpanAt span) buckets

def filled (rows : List MinuteRow) : Buckets :=
  (q.spans rows).foldl q.addCarried ((q.grouped rows).foldl addGroup [])

def minuteBuckets (rows : List MinuteRow) : List MinuteBucket :=
  ((q.filled rows).mergeSort fun b b' => b.1 ≤ b'.1).map fun b =>
    { start := q.from_ + b.1 * q.bucketMs, knownMs := b.2.knownMs, figures := b.2.figures }

end BucketQuery

/-! ### What was added to a bucket -/

def figureOf (figure : Option BucketFigure) : ℚ × Peak :=
  ((figure.map BucketFigure.integral).getD 0, Peak.of (figure.map BucketFigure.peak))

def figuresOf (figure : UsageValue → Option BucketFigure) (v : UsageValue) : ℚ × Peak :=
  figureOf (figure v)

def Accumulator.summary (bucket : Accumulator) : Summary UsageValue :=
  (bucket.knownMs, figuresOf bucket.figures)

def MinuteBucket.summary (bucket : MinuteBucket) : Summary UsageValue :=
  (bucket.knownMs, figuresOf bucket.figures)

/-- What the bucket of an index has, nothing without one. -/
def bucketAt (buckets : Buckets) (index : ℤ) : Summary UsageValue :=
  (buckets.find? fun b => b.1 = index).elim 0 fun b => b.2.summary

theorem figureOf_merge (existing added : Option BucketFigure) :
    figureOf (mergeFigure existing added) = figureOf existing + figureOf added := by
  cases added with
  | none => exact (add_zero (figureOf existing)).symm
  | some a =>
    cases existing with
    | none => exact (zero_add (figureOf (some a))).symm
    | some e => rfl

theorem figuresOf_merge (existing added : UsageValue → Option BucketFigure) :
    (figuresOf fun v => mergeFigure (existing v) (added v)) = figuresOf existing + figuresOf added :=
  funext fun v => figureOf_merge (existing v) (added v)

theorem bucketAt_addTo (buckets : Buckets) (index i : ℤ) (knownMs : ℚ)
    (figure : UsageValue → Option BucketFigure) :
    bucketAt (addTo buckets index knownMs figure) i =
      bucketAt buckets i + if index = i then (knownMs, figuresOf figure) else 0 := by
  unfold addTo
  dsimp only
  by_cases h : index = i
  · subst h
    rw [if_pos rfl, bucketAt, Lib.find_upsert_self Prod.fst (index, _) buckets, Option.elim_some,
      Accumulator.summary, figuresOf_merge, bucketAt]
    cases hfind : buckets.find? fun b => b.1 = index with
    | none => rfl
    | some b => rfl
  · rw [if_neg h, add_zero, bucketAt, Lib.find_upsert_of_ne Prod.fst h buckets, bucketAt]

/-- What the passes of a loop add to the bucket of an index is all the loop adds. -/
theorem bucketAt_foldl {α : Type} {f : Buckets → α → Buckets} {added : α → Summary UsageValue}
    {i : ℤ} : ∀ (xs : List α) (buckets : Buckets),
      (∀ x ∈ xs, ∀ buckets, bucketAt (f buckets x) i = bucketAt buckets i + added x) →
      bucketAt (xs.foldl f buckets) i = bucketAt buckets i + (xs.map added).sum
  | [], _, _ => (add_zero _).symm
  | x :: xs, buckets, hf => by
    rw [List.foldl_cons, bucketAt_foldl xs _ fun y hy => hf y (List.mem_cons_of_mem x hy),
      hf x List.mem_cons_self, List.map_cons, List.sum_cons, add_assoc]

/-- One bucket for an index, and only for the indices that meet `p`. -/
structure Keyed (p : ℤ → Prop) (buckets : Buckets) : Prop where
  nodup : (buckets.map Prod.fst).Nodup
  index : ∀ b ∈ buckets, p b.1

theorem Keyed.nil (p : ℤ → Prop) : Keyed p [] := ⟨List.nodup_nil, nofun⟩

theorem Keyed.addTo {p : ℤ → Prop} {buckets : Buckets} (h : Keyed p buckets) {index : ℤ}
    (hindex : p index) (knownMs : ℚ) (figure : UsageValue → Option BucketFigure) :
    Keyed p (addTo buckets index knownMs figure) := by
  refine ⟨Lib.nodup_keys_upsert _ h.nodup, fun b hb => ?_⟩
  rcases Lib.mem_upsert h.nodup hb with rfl | ⟨hb, -⟩
  · exact hindex
  · exact h.index b hb

/-! ### The rows of the window -/

theorem Peak.of_max? (xs : List ℚ) : Peak.of xs.max? = (xs.map fun x => Peak.of (some x)).sum := by
  induction xs with
  | nil => rfl
  | cons x xs ih =>
    rw [List.map_cons, List.sum_cons, ← ih, List.max?_cons]
    cases xs.max? with
    | none => exact (add_zero (Peak.of (some x))).symm
    | some y => rfl

theorem figureOf_aggregateOf (figures : List Figure) :
    figureOf (BucketQuery.aggregateOf figures) =
      (figures.map fun f => ((f.integral, Peak.of (some f.peak)) : ℚ × Peak)).sum := by
  have hpair : figureOf (BucketQuery.aggregateOf figures) =
      ((figures.map Figure.integral).sum, Peak.of (figures.map Figure.peak).max?) := by
    unfold figureOf BucketQuery.aggregateOf
    cases figures with
    | nil => rfl
    | cons f figures =>
      simp only [List.map_cons, List.max?_cons]
      rfl
  rw [hpair, Peak.of_max?, List.map_map]
  clear hpair
  induction figures with
  | nil => rfl
  | cons f figures ih =>
    rw [List.map_cons, List.sum_cons, List.map_cons, List.sum_cons, List.map_cons, List.sum_cons]
    exact congrArg ((f.integral, Peak.of (some f.peak)) + ·) ih

/-- What the rows come to together. -/
theorem sum_summary (rows : List MinuteRow) :
    ((rows.map MinuteRow.knownMs).sum, figuresOf (BucketQuery.aggregate rows)) =
      (rows.map MinuteRow.summary).sum := by
  have hfst : ((rows.map MinuteRow.summary).sum).1 = (rows.map MinuteRow.knownMs).sum := by
    induction rows with
    | nil => rfl
    | cons r rows ih =>
      rw [List.map_cons, List.sum_cons, Prod.fst_add, ih, List.map_cons, List.sum_cons]
      rfl
  refine Prod.ext hfst.symm (funext fun v => ?_)
  refine (figureOf_aggregateOf _).trans ?_
  clear hfst
  induction rows with
  | nil => rfl
  | cons r rows ih =>
    rw [List.map_cons, List.sum_cons, Prod.snd_add, Pi.add_apply, ← ih]
    match hfigure : r.figures v with
    | none =>
      rw [List.filterMap_cons_none (by exact hfigure)]
      simp only [MinuteRow.summary, hfigure]
      exact (zero_add _).symm
    | some f =>
      rw [List.filterMap_cons_some (by exact hfigure)]
      simp only [MinuteRow.summary, hfigure]
      rfl

end Simlock.History
