import Mathlib.Algebra.BigOperators.Group.List.Basic
import Simlock.History.UsageReads

/-! What a read takes for each minute of its window is what the rows say of it.

    A minute with a row is in the window with it. One without has the last row before it carried
    into it, and no other row: the next row of a span ends it. -/

namespace Simlock.History

open Lib (Summary summaryGauge)

/-! ### Sums over lists -/

theorem sum_map_of_only {α M : Type} [AddCommMonoid M] {l : List α} {f : α → M} {x : α}
    (hx : x ∈ l) (hnodup : l.Nodup) (h : ∀ y ∈ l, y ≠ x → f y = 0) : (l.map f).sum = f x := by
  classical
  rw [List.sum_map_eq_nsmul_single x f fun y hne hy => h y hy hne,
    List.count_eq_one_of_mem hnodup hx, one_nsmul]

theorem sum_map_of_none {α M : Type} [AddCommMonoid M] {l : List α} {f : α → M}
    (h : ∀ y ∈ l, f y = 0) : (l.map f).sum = 0 := by
  refine List.sum_eq_zero fun z hz => ?_
  obtain ⟨y, hy, rfl⟩ := List.mem_map.1 hz
  exact h y hy

namespace BucketQuery

/-! ### Rows and the ones after them -/

def spanOf (row : MinuteRow) (next : Option ℚ) : CarrySpan :=
  { minute := row.minute, carryUntil := row.carryUntil, next := next
    lasts := fun value => (row.figures value).bind Figure.last }

theorem mem_lead {l : List MinuteRow} {span : CarrySpan} (h : span ∈ lead l) :
    ∃ row ∈ l, span = spanOf row span.next := by
  induction l with
  | nil => cases h
  | cons r l ih =>
    rcases List.mem_cons.1 h with rfl | h
    · exact ⟨r, List.mem_cons_self, rfl⟩
    · obtain ⟨row, hrow, hspan⟩ := ih h
      exact ⟨row, List.mem_cons_of_mem r hrow, hspan⟩

theorem exists_lead {l : List MinuteRow} {row : MinuteRow} (h : row ∈ l) :
    ∃ next, spanOf row next ∈ lead l := by
  induction l with
  | nil => cases h
  | cons r l ih =>
    rcases List.mem_cons.1 h with rfl | h
    · exact ⟨_, List.mem_cons_self⟩
    · obtain ⟨next, hnext⟩ := ih h
      exact ⟨next, List.mem_cons_of_mem _ hnext⟩

theorem map_lead (l : List MinuteRow) : (lead l).map CarrySpan.minute = l.map MinuteRow.minute := by
  induction l with
  | nil => rfl
  | cons r l ih => rw [lead, List.map_cons, List.map_cons, ih]

/-- Rows in the order of their minutes, no two of one minute. -/
abbrev Ascending (l : List MinuteRow) : Prop := l.Pairwise fun r r' => r.minute < r'.minute

theorem next_le {l : List MinuteRow} (hl : Ascending l) {span : CarrySpan} (hspan : span ∈ lead l)
    {row : MinuteRow} (hrow : row ∈ l) (hlt : span.minute < row.minute) :
    ∃ next, span.next = some next ∧ next ≤ row.minute := by
  induction l with
  | nil => cases hrow
  | cons r l ih =>
    rw [Ascending, List.pairwise_cons] at hl
    rcases List.mem_cons.1 hspan with rfl | hrest
    · rcases List.mem_cons.1 hrow with rfl | hrow
      · exact absurd hlt (lt_irrefl _)
      cases l with
      | nil => cases hrow
      | cons r' l =>
        refine ⟨r'.minute, rfl, ?_⟩
        rcases List.mem_cons.1 hrow with rfl | hrow
        · exact le_rfl
        · exact ((List.pairwise_cons.1 hl.2).1 row hrow).le
    · rcases List.mem_cons.1 hrow with rfl | hrow
      · obtain ⟨r', hr', hof⟩ := mem_lead hrest
        rw [hof] at hlt
        exact absurd hlt (hl.1 r' hr').not_gt
      · exact ih hl.2 hrest hrow

theorem next_of_mem {l : List MinuteRow} (hl : Ascending l) {span : CarrySpan}
    (hspan : span ∈ lead l) {next : ℚ} (hnext : span.next = some next) :
    ∃ row ∈ l, row.minute = next ∧ span.minute < next := by
  induction l with
  | nil => cases hspan
  | cons r l ih =>
    rw [Ascending, List.pairwise_cons] at hl
    rcases List.mem_cons.1 hspan with rfl | hspan
    · cases l with
      | nil => cases hnext
      | cons r' l =>
        obtain rfl := Option.some.inj hnext
        exact ⟨r', by simp, rfl, hl.1 r' List.mem_cons_self⟩
    · obtain ⟨row, hrow, hrest⟩ := ih hl.2 hspan
      exact ⟨row, List.mem_cons_of_mem r hrow, hrest⟩

/-! ### The spans of a read -/

variable {q : BucketQuery} {rows : List MinuteRow}

theorem mem_spanRows {r : MinuteRow} :
    r ∈ q.spanRows rows ↔ r ∈ rows ∧ q.spansFrom rows ≤ r.minute ∧ r.minute < q.to_ := by
  rw [spanRows, List.mem_mergeSort, List.mem_filter, decide_eq_true_eq]

theorem ascending_spanRows (hnodup : (rows.map MinuteRow.minute).Nodup) :
    Ascending (q.spanRows rows) := by
  have hsorted : (q.spanRows rows).Pairwise fun r r' => decide (r.minute ≤ r'.minute) = true := by
    refine List.pairwise_mergeSort (fun a b c hab hbc => ?_) (fun a b => ?_) _
    · rw [decide_eq_true_eq] at hab hbc ⊢
      exact hab.trans hbc
    · simpa using le_total a.minute b.minute
  have hminutes : ((q.spanRows rows).map MinuteRow.minute).Nodup :=
    ((List.mergeSort_perm _ _).map MinuteRow.minute).nodup_iff.2
      ((List.filter_sublist.map MinuteRow.minute).nodup hnodup)
  refine (hsorted.and (List.pairwise_map.1 hminutes)).imp fun h => ?_
  exact lt_of_le_of_ne (of_decide_eq_true h.1) h.2

theorem spansFrom_le : q.spansFrom rows ≤ q.from_ := by
  unfold spansFrom
  cases hmax : ((rows.filter fun r => r.minute < q.from_).map MinuteRow.minute).max? with
  | none => exact le_rfl
  | some before =>
    obtain ⟨r, hr, rfl⟩ := List.mem_map.1 (List.max?_mem hmax)
    have hlt := (List.mem_filter.1 hr).2
    rw [decide_eq_true_eq] at hlt
    exact hlt.le

/-- The last row before a minute of the window is among the rows of the spans. -/
theorem latest_mem {minute : ℚ} (hfrom : q.from_ ≤ minute) (hto : minute < q.to_) {r : MinuteRow}
    (h : KeyMinutes.latestBefore rows minute = some r) : r ∈ q.spanRows rows := by
  obtain ⟨hr, hlt, hlast⟩ := KeyMinutes.latestBefore_some h
  refine mem_spanRows.2 ⟨hr, ?_, hlt.trans hto⟩
  unfold spansFrom
  cases hmax : ((rows.filter fun r => r.minute < q.from_).map MinuteRow.minute).max? with
  | none =>
    rw [List.max?_eq_none_iff, List.map_eq_nil_iff, List.filter_eq_nil_iff] at hmax
    simpa using hmax r hr
  | some before =>
    obtain ⟨r', hr', rfl⟩ := List.mem_map.1 (List.max?_mem hmax)
    obtain ⟨hmem, hbefore⟩ := List.mem_filter.1 hr'
    rw [decide_eq_true_eq] at hbefore
    exact hlast r' hmem (hbefore.trans_le hfrom)

def covers (q : BucketQuery) (span : CarrySpan) (minute : ℚ) : Prop :=
  q.spanStart span ≤ minute ∧ minute < q.spanEnd span

instance (span : CarrySpan) (minute : ℚ) : Decidable (q.covers span minute) :=
  inferInstanceAs (Decidable (_ ∧ _))

theorem lt_spanEnd (span : CarrySpan) (minute : ℚ) :
    minute < q.spanEnd span ↔ minute < q.to_ ∧ (∀ next ∈ span.next, minute < next) ∧
      span.carryUntil.all fun carryUntil => minute < minuteOf carryUntil := by
  unfold spanEnd
  cases span.next <;> cases span.carryUntil <;> simp [and_comm, and_left_comm, and_assoc]

/-- The window and the width are whole minutes. -/
structure Whole (q : BucketQuery) (first last width : ℤ) : Prop where
  from_ : q.from_ = first * minuteMs
  to_ : q.to_ = last * minuteMs
  bucketMs : q.bucketMs = width * minuteMs
  pos : 0 < width

theorem minute_div (k : ℤ) : k * minuteMs / minuteMs = (k : ℚ) :=
  mul_div_cancel_right₀ _ minuteMs_pos.ne'

theorem mul_minuteMs_le {j k : ℤ} : (j : ℚ) * minuteMs ≤ k * minuteMs ↔ j ≤ k :=
  (mul_le_mul_iff_left₀ minuteMs_pos).trans Int.cast_le

theorem mul_minuteMs_lt {j k : ℤ} : (j : ℚ) * minuteMs < k * minuteMs ↔ j < k :=
  (mul_lt_mul_iff_left₀ minuteMs_pos).trans Int.cast_lt

theorem Whole.firstMinute {first last width : ℤ} (h : q.Whole first last width) :
    q.firstMinute = first * minuteMs := by
  rw [BucketQuery.firstMinute, h.from_, minute_div, Int.ceil_intCast]

/-- Of a minute of the window: its span's row is before it, and what ends the span is not. -/
theorem covers_iff {first last width k j : ℤ} (h : q.Whole first last width) (hfirst : first ≤ k)
    (hlast : k < last) {span : CarrySpan} (hspan : span.minute = j * minuteMs) :
    q.covers span (k * minuteMs) ↔ span.minute < k * minuteMs ∧
      (∀ next ∈ span.next, k * minuteMs < next) ∧
      span.carryUntil.all fun carryUntil => (k : ℚ) * minuteMs < minuteOf carryUntil := by
  have hstart : span.minute + minuteMs = ((j + 1 : ℤ) : ℚ) * minuteMs := by
    rw [hspan]
    push_cast
    ring
  have hto : (k : ℚ) * minuteMs < q.to_ := by rwa [h.to_, mul_minuteMs_lt]
  rw [covers, spanStart, max_le_iff, h.firstMinute, hstart, mul_minuteMs_le, mul_minuteMs_le,
    lt_spanEnd, hspan, mul_minuteMs_lt]
  constructor
  · rintro ⟨⟨hjk, -⟩, -, hrest⟩
    exact ⟨by omega, hrest⟩
  · rintro ⟨hjk, hrest⟩
    exact ⟨⟨by omega, hfirst⟩, hto, hrest⟩

end BucketQuery

/-- A whole minute of a span. -/
def CarrySpan.carried (span : CarrySpan) : Summary UsageValue :=
  (summaryGauge UsageValue).of span.lasts minuteMs

namespace BucketQuery

variable {q : BucketQuery} {rows : List MinuteRow}

theorem mem_spans {span : CarrySpan} (h : span ∈ q.spans rows) :
    span ∈ lead (q.spanRows rows) := (List.mem_filter.1 h).1

theorem nodup_spans (hnodup : (rows.map MinuteRow.minute).Nodup) : (q.spans rows).Nodup := by
  have hlead : ((lead (q.spanRows rows)).map CarrySpan.minute).Nodup := by
    rw [map_lead]
    exact List.pairwise_map.2 ((ascending_spanRows hnodup).imp fun h => h.ne)
  exact hlead.of_map.filter _

theorem minute_inj {s s' : CarrySpan} (hnodup : (rows.map MinuteRow.minute).Nodup)
    (hs : s ∈ lead (q.spanRows rows)) (hs' : s' ∈ lead (q.spanRows rows))
    (h : s.minute = s'.minute) : s = s' := by
  have hlead : ((lead (q.spanRows rows)).map CarrySpan.minute).Nodup := by
    rw [map_lead]
    exact List.pairwise_map.2 ((ascending_spanRows hnodup).imp fun h => h.ne)
  exact List.inj_on_of_nodup_map hlead hs hs' h

section

variable {first last width k : ℤ} (h : q.Whole first last width) (hfirst : first ≤ k)
  (hlast : k < last) (hnodup : (rows.map MinuteRow.minute).Nodup)
  (haligned : ∀ r ∈ rows, ∃ j : ℤ, r.minute = j * minuteMs)

include h hfirst hlast haligned

/-- A span that covers a minute of the window is of a row before it, and ends after it. -/
theorem row_of_covers {span : CarrySpan} (hspan : span ∈ q.spans rows)
    (hcovers : q.covers span (k * minuteMs)) :
    (∃ r ∈ rows, r.minute = span.minute) ∧ span.minute < k * minuteMs ∧
      ∀ next ∈ span.next, k * minuteMs < next := by
  obtain ⟨r, hr, hof⟩ := mem_lead (mem_spans hspan)
  obtain ⟨j, hj⟩ := haligned r (mem_spanRows.1 hr).1
  have hminute : span.minute = r.minute := by rw [hof]; rfl
  rw [covers_iff h hfirst hlast (hminute.trans hj)] at hcovers
  exact ⟨⟨r, (mem_spanRows.1 hr).1, hminute.symm⟩, hcovers.1, hcovers.2.1⟩

include hnodup

/-- No span covers a minute with a row. -/
theorem not_covers_of_row {row : MinuteRow} (hrow : row ∈ rows)
    (hminute : row.minute = k * minuteMs) {span : CarrySpan} (hspan : span ∈ q.spans rows) :
    ¬ q.covers span (k * minuteMs) := fun hcovers => by
  obtain ⟨-, hlt, hends⟩ := row_of_covers h hfirst hlast haligned hspan hcovers
  have hfrom : q.from_ ≤ row.minute := by rwa [h.from_, hminute, mul_minuteMs_le]
  have hto : row.minute < q.to_ := by rwa [h.to_, hminute, mul_minuteMs_lt]
  have hmem : row ∈ q.spanRows rows := mem_spanRows.2 ⟨hrow, spansFrom_le.trans hfrom, hto⟩
  obtain ⟨next, hnext, hle⟩ := next_le (ascending_spanRows hnodup) (mem_spans hspan) hmem
    (hminute ▸ hlt)
  exact absurd (hends next hnext) (not_lt.2 (hminute ▸ hle))

/-- Nor a span of another row than the last before the minute. -/
theorem not_covers_of_ne {r : MinuteRow}
    (hlatest : KeyMinutes.latestBefore rows (k * minuteMs) = some r) {span : CarrySpan}
    (hspan : span ∈ q.spans rows) (hne : span.minute ≠ r.minute) :
    ¬ q.covers span (k * minuteMs) := fun hcovers => by
  obtain ⟨⟨r', hr', hminute⟩, hlt, hends⟩ :=
    row_of_covers h hfirst hlast haligned hspan hcovers
  obtain ⟨-, hbefore, hlater⟩ := KeyMinutes.latestBefore_some hlatest
  have hle : span.minute ≤ r.minute := hminute ▸ hlater r' hr' (hminute ▸ hlt)
  have hfrom : q.from_ ≤ k * minuteMs := by rwa [h.from_, mul_minuteMs_le]
  have hto : (k : ℚ) * minuteMs < q.to_ := by rwa [h.to_, mul_minuteMs_lt]
  obtain ⟨next, hnext, hle⟩ := next_le (ascending_spanRows hnodup) (mem_spans hspan)
    (latest_mem hfrom hto hlatest) (lt_of_le_of_ne hle hne)
  exact absurd (hends next hnext) (not_lt.2 (hle.trans hbefore.le))

/-- The last row before a minute without a row has a span that reaches the minute, if it carries. -/
theorem span_of_latest (hload : KeyMinutes.load rows (k * minuteMs) = none) {r : MinuteRow}
    (hlatest : KeyMinutes.latestBefore rows (k * minuteMs) = some r) :
    ∃ next, spanOf r next ∈ q.spans rows ∧
      (q.covers (spanOf r next) (k * minuteMs) ↔ KeyMinutes.carries r (k * minuteMs) = true) := by
  have hfrom : q.from_ ≤ k * minuteMs := by rwa [h.from_, mul_minuteMs_le]
  have hto : (k : ℚ) * minuteMs < q.to_ := by rwa [h.to_, mul_minuteMs_lt]
  have hascending := ascending_spanRows (q := q) hnodup
  obtain ⟨hmem, hbefore, hlater⟩ := KeyMinutes.latestBefore_some hlatest
  obtain ⟨j, hj⟩ := haligned r hmem
  obtain ⟨next, hspan⟩ := exists_lead (latest_mem hfrom hto hlatest)
  -- the row after it is not of the minute, nor before it
  have hnext : ∀ n ∈ next, k * minuteMs < n := fun n hn => by
    obtain ⟨r', hr', rfl, hafter⟩ := next_of_mem hascending hspan hn
    have hmem' := (mem_spanRows.1 hr').1
    have hno := List.find?_eq_none.1 hload r' hmem'
    rw [decide_eq_true_eq] at hno
    refine lt_of_le_of_ne (not_lt.1 fun hlt => ?_) (Ne.symm hno)
    exact absurd hafter (not_lt.2 (hlater r' hmem' hlt))
  have hone : r.minute + minuteMs ≤ k * minuteMs := by
    have hlt := hbefore
    rw [hj, mul_minuteMs_lt] at hlt
    have hle : ((j + 1 : ℤ) : ℚ) * minuteMs ≤ k * minuteMs := mul_minuteMs_le.2 hlt
    push_cast at hle
    rw [hj]
    linarith
  refine ⟨next, List.mem_filter.2 ⟨hspan, ?_⟩, ?_⟩
  · cases next with
    | none => rfl
    | some n => exact decide_eq_true (hone.trans_lt (hnext n rfl))
  · have hminute : (spanOf r next).minute = j * minuteMs := hj
    rw [covers_iff h hfirst hlast hminute]
    exact ⟨fun hcovers => hcovers.2.2, fun hcarries => ⟨hbefore, hnext, hcarries⟩⟩

/-- What the spans carry into a minute without a row. -/
theorem carried_eq (hload : KeyMinutes.load rows (k * minuteMs) = none) :
    ((q.spans rows).map fun s => if q.covers s (k * minuteMs) then s.carried else 0).sum =
      KeyMinutes.summaryAt rows (k * minuteMs) := by
  unfold KeyMinutes.summaryAt
  rw [hload]
  dsimp only
  cases hlatest : KeyMinutes.latestBefore rows (k * minuteMs) with
  | none =>
    refine sum_map_of_none fun s hs => if_neg fun hcovers => ?_
    obtain ⟨⟨r, hr, hminute⟩, hlt, -⟩ := row_of_covers h hfirst hlast haligned hs hcovers
    exact absurd (hminute ▸ hlt) (not_lt.2 (KeyMinutes.latestBefore_none hlatest r hr))
  | some r =>
    obtain ⟨next, hspan, hcovers⟩ := span_of_latest h hfirst hlast hnodup haligned hload hlatest
    have honly : ∀ s ∈ q.spans rows, s ≠ spanOf r next →
        (if q.covers s (k * minuteMs) then s.carried else 0) = 0 := fun s hs hne =>
      if_neg (not_covers_of_ne h hfirst hlast hnodup haligned hlatest hs fun heq =>
        hne (minute_inj hnodup (mem_spans hs) (mem_spans hspan) heq))
    rw [sum_map_of_only hspan (nodup_spans hnodup) honly]
    dsimp only
    simp only [hcovers]
    rfl

/-- What a read takes for a minute of its window. -/
theorem taken_eq :
    ((q.inWindow rows).map fun r => if r.minute = k * minuteMs then r.summary else 0).sum +
        ((q.spans rows).map fun s => if q.covers s (k * minuteMs) then s.carried else 0).sum =
      KeyMinutes.summaryAt rows (k * minuteMs) := by
  have hrows : ∀ r ∈ q.inWindow rows, r ∈ rows := fun r hr => (List.mem_filter.1 hr).1
  cases hload : KeyMinutes.load rows (k * minuteMs) with
  | some row =>
    have hrow := List.mem_of_find?_eq_some hload
    have hminute := KeyMinutes.load_minute hload
    have hwindow : row ∈ q.inWindow rows := by
      rw [inWindow, List.mem_filter, decide_eq_true_eq, hminute, h.from_, h.to_, mul_minuteMs_le,
        mul_minuteMs_lt]
      exact ⟨hrow, hfirst, hlast⟩
    have honly : ∀ r ∈ q.inWindow rows, r ≠ row →
        (if r.minute = k * minuteMs then r.summary else 0) = 0 := fun r hr hne =>
      if_neg fun heq =>
        hne (List.inj_on_of_nodup_map hnodup (hrows r hr) hrow (heq.trans hminute.symm))
    rw [sum_map_of_only hwindow (hnodup.of_map.filter _) honly, if_pos hminute,
      sum_map_of_none fun s hs => if_neg
        (not_covers_of_row h hfirst hlast hnodup haligned hrow hminute hs), add_zero,
      KeyMinutes.summaryAt, hload]
  | none =>
    have hno : ∀ r ∈ q.inWindow rows, (if r.minute = k * minuteMs then r.summary else 0) = 0 :=
      fun r hr => if_neg fun heq => by
        have hnot := List.find?_eq_none.1 hload r (hrows r hr)
        simp [heq] at hnot
    rw [sum_map_of_none hno, zero_add, carried_eq h hfirst hlast hnodup haligned hload]

end

end BucketQuery

end Simlock.History
