import Simlock.Lib.Sweep

/-! How many leases of a learned kind were held at once in the last 24 hours.

    The leases are clipped to the window's start; those that ended by then are left out. The others
    give a rise at their start and, when they have ended, a fall at their end, and the edges are
    swept in the order of time with the falls of an instant first:

        lease    [───────)                    rise at its start, fall at its end
        window       [──────────────)         a start before it counts from its start

    The peak of the sweep is the highest count of leases held at an instant of the window, where a
    lease is held from its grant on and no longer at its end. -/

namespace Simlock.WarmPool

open Simlock.Lib

/-- A row of `warm_kind_leases`; a lease still held has no end. -/
structure LeaseRow where
  grantedAt : Int
  endedAt : Option Int
  deriving DecidableEq, Repr

/-- Ends no earlier than it was granted. -/
def LeaseRow.Ok (row : LeaseRow) : Prop := ∀ ended, row.endedAt = some ended → row.grantedAt ≤ ended

structure Interval where
  start : Int
  endsAt : Option Int
  deriving DecidableEq, Repr

def clip (windowStart : Int) (row : LeaseRow) : Interval :=
  ⟨max row.grantedAt windowStart, row.endedAt⟩

/-- Not over by the window's start. -/
def Interval.reaches (floor : Int) (interval : Interval) : Bool :=
  match interval.endsAt with
  | none => true
  | some ended => decide (ended > floor)

/-- A rise at the start, and a fall at the end of one that has ended. -/
def Interval.edges (interval : Interval) : List Edge :=
  ⟨interval.start, 1⟩ ::
    match interval.endsAt with
    | none => []
    | some ended => [⟨ended, -1⟩]

def edgesOf (intervals : List Interval) (floor : Int) : List Edge :=
  (intervals.filter (Interval.reaches floor)).flatMap Interval.edges

def peakOverlap (intervals : List Interval) (floor : Int) : Int :=
  (sweepFrom 0 0 ((edgesOf intervals floor).insertionSort Edge.before)).2

/-- The peak `kinds` reads from a kind's leases, for a window that starts at `windowStart`. -/
def learnedPeak (rows : List LeaseRow) (windowStart : Int) : Int :=
  peakOverlap (rows.map (clip windowStart)) windowStart

/-! ### What is held at an instant -/

/-- Held from its start on and no longer at its end. -/
def LeaseRow.heldAt (t : Int) (row : LeaseRow) : Bool :=
  decide (row.grantedAt ≤ t) && row.endedAt.all fun ended => decide (t < ended)

/-- How many leases are held at an instant. -/
def heldAt (rows : List LeaseRow) (t : Int) : Int := rows.countP (LeaseRow.heldAt t)

/-- The edges of one clipped lease, none when it is over by the window's start. -/
def LeaseRow.edges (windowStart : Int) (row : LeaseRow) : List Edge :=
  edgesOf [clip windowStart row] windowStart

theorem edgesOf_cons (windowStart : Int) (row : LeaseRow) (rows : List LeaseRow) :
    edgesOf ((row :: rows).map (clip windowStart)) windowStart =
      row.edges windowStart ++ edgesOf (rows.map (clip windowStart)) windowStart := by
  unfold LeaseRow.edges edgesOf
  rw [List.map_cons, List.filter_cons]
  cases h : (clip windowStart row).reaches windowStart <;> simp [h]

theorem LeaseRow.edges_reaches {row : LeaseRow} {windowStart : Int}
    (h : (clip windowStart row).reaches windowStart = true) :
    row.edges windowStart = (clip windowStart row).edges := by
  unfold LeaseRow.edges edgesOf
  rw [List.filter_cons_of_pos h]
  simp

theorem LeaseRow.edges_over {row : LeaseRow} {windowStart : Int}
    (h : ¬ (clip windowStart row).reaches windowStart = true) :
    row.edges windowStart = [] := by
  unfold LeaseRow.edges edgesOf
  rw [List.filter_cons_of_neg h]
  simp

/-- From the window's start on, a lease's edges add up to one while it is held and else to none. -/
theorem LeaseRow.level (row : LeaseRow) (h : row.Ok) {windowStart t : Int} (ht : windowStart ≤ t) :
    levelAt (row.edges windowStart) t = if row.heldAt t then 1 else 0 := by
  obtain ⟨grantedAt, endedAt⟩ := row
  cases endedAt with
  | none =>
    rw [LeaseRow.edges_reaches rfl]
    by_cases hgranted : grantedAt ≤ t
    · simp [clip, Interval.edges, levelAt, LeaseRow.heldAt, hgranted, ht]
    · simp [clip, Interval.edges, levelAt, LeaseRow.heldAt, hgranted]
  | some ended =>
    have hend : grantedAt ≤ ended := h ended rfl
    by_cases hreaches : windowStart < ended
    · rw [LeaseRow.edges_reaches (by simpa [clip, Interval.reaches] using hreaches)]
      by_cases hover : ended ≤ t
      · have hgranted : grantedAt ≤ t := hend.trans hover
        simp [clip, Interval.edges, levelAt, LeaseRow.heldAt, hgranted, ht, hover]
      · by_cases hgranted : grantedAt ≤ t
        · simp [clip, Interval.edges, levelAt, LeaseRow.heldAt, hgranted, ht, hover,
            not_le.1 hover]
        · simp [clip, Interval.edges, levelAt, LeaseRow.heldAt, hgranted, hover]
    · have hheld : ¬ t < ended := fun hlt => hreaches (lt_of_le_of_lt ht hlt)
      rw [LeaseRow.edges_over (by simpa [clip, Interval.reaches] using hreaches)]
      simp [levelAt, LeaseRow.heldAt, hheld]

theorem level_edgesOf {rows : List LeaseRow} (h : ∀ row ∈ rows, row.Ok) {windowStart t : Int}
    (ht : windowStart ≤ t) :
    levelAt (edgesOf (rows.map (clip windowStart)) windowStart) t = heldAt rows t := by
  induction rows with
  | nil => rfl
  | cons row rows ih =>
    rw [edgesOf_cons, levelAt_append, ih fun other hmem => h other (List.mem_cons_of_mem _ hmem),
      row.level (h row List.mem_cons_self) ht]
    unfold heldAt
    rw [List.countP_cons]
    split <;> push_cast <;> omega

/-- A rise is at a start in the window, no later than the last grant. -/
theorem rise_start {rows : List LeaseRow} {windowStart : Int} {e : Edge}
    (hmem : e ∈ edgesOf (rows.map (clip windowStart)) windowStart) (hrise : 0 < e.delta) :
    ∃ row ∈ rows, e.time = max row.grantedAt windowStart := by
  obtain ⟨interval, hinterval, hedge⟩ := List.mem_flatMap.1 hmem
  obtain ⟨row, hrow, rfl⟩ := List.mem_map.1 (List.mem_of_mem_filter hinterval)
  refine ⟨row, hrow, ?_⟩
  unfold Interval.edges at hedge
  rcases List.mem_cons.1 hedge with rfl | hfall
  · rfl
  · cases hended : (clip windowStart row).endsAt with
    | none =>
      rw [hended] at hfall
      cases hfall
    | some ended =>
      rw [hended] at hfall
      rw [List.mem_singleton.1 hfall] at hrise
      exact absurd hrise (by simp)

/-! ### The peak is the highest count -/

/-- The peak over any instants of the window that hold its start and every grant in it. -/
theorem learnedPeak_isGreatest {rows : List LeaseRow} (h : ∀ row ∈ rows, row.Ok)
    {windowStart : Int} {times : Set Int} (hfloor : windowStart ∈ times)
    (hin : ∀ t ∈ times, windowStart ≤ t)
    (hgrants : ∀ row ∈ rows, max row.grantedAt windowStart ∈ times) :
    IsGreatest (heldAt rows '' times) (learnedPeak rows windowStart) := by
  let edges := edgesOf (rows.map (clip windowStart)) windowStart
  have hperm : (edges.insertionSort Edge.before).Perm edges := List.perm_insertionSort _ _
  have hlevel : ∀ t ∈ times, levelAt (edges.insertionSort Edge.before) t = heldAt rows t :=
    fun t ht => (levelAt_perm hperm t).trans (level_edgesOf h (hin t ht))
  have hgreatest := sweep_isGreatest (List.pairwise_insertionSort Edge.before edges) hfloor
    (fun e hmem hrise => by
      obtain ⟨row, hrow, htime⟩ := rise_start (hperm.mem_iff.1 hmem) hrise
      rw [htime]
      exact hgrants row hrow)
    (fun t ht => by
      rw [hlevel t ht]
      exact Int.natCast_nonneg _)
  rwa [Set.image_congr hlevel] at hgreatest

/-- Whatever the order of the leases and however many share an instant, the learned peak is the
    highest count of leases held at an instant from the window's start on; and at an instant up to
    now, when no lease was granted later than now. -/
theorem learned_peak_exact (rows : List LeaseRow) (windowStart : Int)
    (h : ∀ row ∈ rows, row.Ok) :
    IsGreatest (heldAt rows '' {t | windowStart ≤ t}) (learnedPeak rows windowStart) ∧
      ∀ now, windowStart ≤ now → (∀ row ∈ rows, row.grantedAt ≤ now) →
        IsGreatest (heldAt rows '' {t | windowStart ≤ t ∧ t ≤ now})
          (learnedPeak rows windowStart) := by
  refine ⟨learnedPeak_isGreatest h ?_ ?_ ?_, fun now hnow hgranted =>
    learnedPeak_isGreatest h ?_ ?_ ?_⟩
  · exact le_refl windowStart
  · exact fun t ht => ht
  · exact fun row _ => le_max_right row.grantedAt windowStart
  · exact ⟨le_refl windowStart, hnow⟩
  · exact fun t ht => ht.1
  · exact fun row hrow => ⟨le_max_right row.grantedAt windowStart, max_le (hgranted row hrow) hnow⟩

/-- Two leases back to back, one of no length and one still held. -/
def backToBack : List LeaseRow := [⟨20, some 30⟩, ⟨5, some 20⟩, ⟨25, none⟩, ⟨20, some 20⟩]

theorem learned_peak_exact_backToBack :
    (∀ row ∈ backToBack, row.Ok) ∧
      IsGreatest (heldAt backToBack '' {t | 10 ≤ t}) (learnedPeak backToBack 10) ∧
        learnedPeak backToBack 10 = 2 := by
  have hok : ∀ row ∈ backToBack, row.Ok := by
    intro row hrow ended hended
    simp only [backToBack, List.mem_cons, List.not_mem_nil, or_false] at hrow
    rcases hrow with rfl | rfl | rfl | rfl <;> cases hended <;> decide
  exact ⟨hok, (learned_peak_exact backToBack 10 hok).1, by decide⟩

end Simlock.WarmPool
