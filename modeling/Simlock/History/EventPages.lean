import Simlock.History.EventLog
import Simlock.Lib.Keyed

/-! Paging back through the history.

    A page is the newest rows before the event it is asked for, in the order of time, sequence and
    row; the rows that cannot be read are left out of it. The next page is asked for with the oldest
    event of the last one, and a page shorter than the limit is the last:

        newest ─ r r r │ r r r │ r ✗ r │ r r r ─ oldest
                 page    page    short: the rows behind it are never asked for -/

namespace Simlock.History

open Core (Json payloadOf)

/-- `ORDER BY timestamp, seq, rowid`. -/
def pageKey (row : StoredEvent) : ℚ ×ₗ ℕ ×ₗ ℕ := toLex (row.timestamp, toLex (row.seq, row.rowid))

/-- `WORKER_FILTER_SQL`: the payload names the worker, and the event is not its refusal. -/
def workerFilter (workerId : Option String) (row : StoredEvent) : Bool :=
  match workerId with
  | none => true
  | some worker =>
    let envelope := payloadOf row.envelope
    (match Core.Payload.field (payloadOf (envelope.field "payload")) "workerId" with
      | some (.string named) => named = worker
      | _ => false) &&
    (match envelope.field "event" with
      | none => false
      | some .null => false
      | some (.string event) => event ≠ "worker.rejected"
      | some _ => true)

/-- The filter in memory. -/
def isWorkerEvent (workerId : Option String) (event : Json) : Bool :=
  match workerId with
  | none => true
  | some worker =>
    let envelope := payloadOf (some event)
    (match envelope.field "event" with
      | some (.string event) => event ≠ "worker.rejected"
      | _ => true) &&
    (match Core.Payload.field (payloadOf (envelope.field "payload")) "workerId" with
      | some (.string named) => named = worker
      | _ => false)

def parseEnvelopes (rows : List StoredEvent) : List Json :=
  rows.filterMap fun row => parseEnvelope row.envelope

namespace EventTable

variable (table : EventTable)

/-- The rows of a filter, the newest first. -/
def newestFirst (workerId : Option String) : List StoredEvent :=
  (Lib.ordered pageKey (table.rows.filter (workerFilter workerId))).reverse

def selectNewestEvents (limit : Nat) (workerId : Option String) : List Json :=
  (parseEnvelopes ((table.newestFirst workerId).take limit)).reverse

def selectEventsBefore (beforeId : String) (limit : Nat) (workerId : Option String) :
    Option (List Json) :=
  (table.rows.find? fun row => row.id = beforeId).map fun cursor =>
    (parseEnvelopes ((Lib.ordered pageKey (table.rows.filter fun row =>
      pageKey row < pageKey cursor && workerFilter workerId row)).reverse.take limit)).reverse

def selectOldestTimestamp : Option ℚ :=
  (Lib.ordered pageKey table.rows).head?.map StoredEvent.timestamp

end EventTable

inductive EventsPageRead where
  | events (events : List Json)
  | notKept (oldestTs : ℚ)
  | unavailable

namespace EventLog

variable (h : EventLog)

/-- `replayPage`; `ring` are the events in memory, and a read of the file may fail. -/
def replayPage (ring : List Json) (fails : Bool) (beforeId : Option String) (limit : Nat)
    (workerId : Option String) : EventsPageRead :=
  let reads := h.opened && h.readable && h.writing
  match beforeId with
  | none =>
    if reads && !fails then .events (h.table.selectNewestEvents limit workerId)
    else
      let kept := ring.filter (isWorkerEvent workerId)
      .events (kept.drop (kept.length - limit))
  | some beforeId =>
    if !reads || fails then .unavailable
    else
      match h.table.selectEventsBefore beforeId limit workerId with
      | some events => .events events
      | none =>
        match h.table.selectOldestTimestamp with
        | none => .events []
        | some oldestTs => .notKept oldestTs

/-- The pages one after the other, each before the oldest event of the one before it, until one is
    shorter than the limit; put end to end, the oldest event first. -/
def followPages (ring : List Json) (limit : Nat) (workerId : Option String) :
    Nat → Option String → List Json
  | 0, _ => []
  | fuel + 1, beforeId =>
    match h.replayPage ring false beforeId limit workerId with
    | .events page =>
      if page.length < limit then page
      else
        match page.head?.bind eventId with
        | some oldest => followPages ring limit workerId fuel (some oldest) ++ page
        | none => page
    | _ => []

end EventLog

/-! ### The rows of the pages -/

theorem EventTable.nodup_pageKey (table : EventTable) : (table.rows.map pageKey).Nodup := by
  have h := table.rowids
  rw [List.Nodup, List.pairwise_map] at h ⊢
  refine h.imp fun {a b} hab heq => hab ?_
  exact congrArg (fun key => (ofLex (ofLex key).2).2) heq

/-- A row can be read. -/
def StoredEvent.isReadable (row : StoredEvent) : Bool := (parseEnvelope row.envelope).isSome

/-- A page of rows that are not all read hides one behind it that could be: in windows of `limit`
    rows, the newest first. -/
def hides (limit : Nat) (rows : List StoredEvent) : Bool :=
  (List.range rows.length).any fun i =>
    (((rows.drop (limit * i)).take limit).any fun row => !row.isReadable) &&
      (rows.drop (limit * (i + 1))).any StoredEvent.isReadable

/-- What the pages over these rows come to. -/
def visited (limit : Nat) : Nat → List StoredEvent → List Json
  | 0, _ => []
  | fuel + 1, rows =>
    let page := (parseEnvelopes (rows.take limit)).reverse
    if page.length < limit then page else visited limit fuel (rows.drop limit) ++ page

theorem parseEnvelopes_append (rows rows' : List StoredEvent) :
    parseEnvelopes (rows ++ rows') = parseEnvelopes rows ++ parseEnvelopes rows' :=
  List.filterMap_append

theorem length_parseEnvelopes_le (rows : List StoredEvent) :
    (parseEnvelopes rows).length ≤ rows.length := List.length_filterMap_le _ _

/-- Every row was read exactly when there is an event for each. -/
theorem length_parseEnvelopes_iff : ∀ rows : List StoredEvent,
    (parseEnvelopes rows).length = rows.length ↔ ∀ row ∈ rows, row.isReadable = true
  | [] => by simp [parseEnvelopes]
  | row :: rows => by
    have ih := length_parseEnvelopes_iff rows
    have hle := length_parseEnvelopes_le rows
    rw [List.forall_mem_cons, ← ih]
    cases hparse : parseEnvelope row.envelope with
    | none =>
      have hskip : parseEnvelopes (row :: rows) = parseEnvelopes rows :=
        List.filterMap_cons_none hparse
      rw [hskip, List.length_cons]
      simp only [StoredEvent.isReadable, hparse, Option.isSome_none, Bool.false_eq_true, false_and,
        iff_false]
      omega
    | some event =>
      have hread : parseEnvelopes (row :: rows) = event :: parseEnvelopes rows :=
        List.filterMap_cons_some hparse
      rw [hread, List.length_cons, List.length_cons]
      simp only [StoredEvent.isReadable, hparse, Option.isSome_some, true_and, Nat.add_right_cancel_iff]

theorem parseEnvelopes_eq_nil {rows : List StoredEvent} :
    parseEnvelopes rows = [] ↔ ∀ row ∈ rows, row.isReadable = false := by
  simp [parseEnvelopes, List.filterMap_eq_nil_iff, StoredEvent.isReadable]

/-- What is in the first window and what is behind it. -/
theorem hides_iff {limit : Nat} (hlimit : 0 < limit) (rows : List StoredEvent) :
    hides limit rows = true ↔ ∃ i, (∃ row ∈ (rows.drop (limit * i)).take limit,
      row.isReadable = false) ∧ ∃ row ∈ rows.drop (limit * (i + 1)), row.isReadable = true := by
  simp only [hides, List.any_eq_true, List.mem_range, Bool.and_eq_true, Bool.not_eq_true']
  constructor
  · rintro ⟨i, -, hwindow, hbehind⟩
    exact ⟨i, hwindow, hbehind⟩
  · rintro ⟨i, hwindow, row, hrow, hread⟩
    refine ⟨i, ?_, hwindow, row, hrow, hread⟩
    have hlen := List.length_pos_of_mem hrow
    rw [List.length_drop] at hlen
    have hi : i ≤ limit * i := Nat.le_mul_of_pos_left i hlimit
    have hsucc : limit * (i + 1) = limit * i + limit := Nat.mul_succ limit i
    omega

/-- Behind a window that is all read, what is hidden is hidden behind a later one. -/
theorem hides_drop {limit : Nat} (hlimit : 0 < limit) {rows : List StoredEvent}
    (hread : ∀ row ∈ rows.take limit, row.isReadable = true) :
    hides limit rows = hides limit (rows.drop limit) := by
  have hdrop : ∀ i, (rows.drop limit).drop (limit * i) = rows.drop (limit * (i + 1)) := fun i => by
    rw [List.drop_drop, Nat.mul_succ, Nat.add_comm]
  rw [Bool.eq_iff_iff, hides_iff hlimit, hides_iff hlimit]
  constructor
  · rintro ⟨i, ⟨row, hrow, hbad⟩, hbehind⟩
    cases i with
    | zero =>
      rw [Nat.mul_zero, List.drop_zero] at hrow
      rw [hread row hrow] at hbad
      cases hbad
    | succ i => exact ⟨i, ⟨row, by rw [hdrop]; exact hrow, hbad⟩, by rw [hdrop]; exact hbehind⟩
  · rintro ⟨i, hwindow, hbehind⟩
    rw [hdrop] at hwindow hbehind
    exact ⟨i + 1, hwindow, hbehind⟩

/-- Behind a page that is short of events, everything that could be read is hidden. -/
theorem hides_short {limit : Nat} (hlimit : 0 < limit) {rows : List StoredEvent}
    (hshort : (parseEnvelopes (rows.take limit)).length < limit) :
    hides limit rows = false ↔ parseEnvelopes (rows.drop limit) = [] := by
  rw [← Bool.not_eq_true, hides_iff hlimit, parseEnvelopes_eq_nil]
  constructor
  · intro hnot row hrow
    rw [← Bool.not_eq_true]
    intro hread
    refine hnot ⟨0, ?_, row, by rwa [Nat.zero_add, Nat.mul_one], hread⟩
    rw [Nat.mul_zero, List.drop_zero]
    -- the window is full, so one of its rows was not read
    by_contra hall
    have hlen : (parseEnvelopes (rows.take limit)).length = (rows.take limit).length := by
      refine (length_parseEnvelopes_iff _).2 fun row hrow => ?_
      rw [← Bool.not_eq_false]
      exact fun hbad => hall ⟨row, hrow, hbad⟩
    have hpos := List.length_pos_of_mem hrow
    rw [List.length_drop] at hpos
    rw [List.length_take] at hlen
    omega
  · rintro hall ⟨i, -, row, hrow, hread⟩
    have hmem : row ∈ rows.drop limit := by
      rw [Nat.mul_succ, Nat.add_comm, ← List.drop_drop] at hrow
      exact List.mem_of_mem_drop hrow
    rw [hall row hmem] at hread
    cases hread

/-- The pages come to all events of the rows exactly when none is hidden. -/
theorem visited_eq_iff {limit : Nat} (hlimit : 0 < limit) :
    ∀ (fuel : Nat) (rows : List StoredEvent), rows.length < fuel →
      (visited limit fuel rows = (parseEnvelopes rows).reverse ↔ hides limit rows = false)
  | 0, rows, hfuel => absurd hfuel (Nat.not_lt_zero _)
  | fuel + 1, rows, hfuel => by
    have hrows : (parseEnvelopes rows).reverse =
        (parseEnvelopes (rows.drop limit)).reverse ++ (parseEnvelopes (rows.take limit)).reverse := by
      rw [← List.reverse_append, ← parseEnvelopes_append, List.take_append_drop]
    rw [visited, List.length_reverse, hrows]
    split
    · rename_i hshort
      rw [hides_short hlimit hshort, List.self_eq_append_left, List.reverse_eq_nil_iff]
    · rename_i hfull
      have htake : (rows.take limit).length ≤ limit := by
        rw [List.length_take]
        exact Nat.min_le_left _ _
      have hle := length_parseEnvelopes_le (rows.take limit)
      have hread := (length_parseEnvelopes_iff _).1
        (show (parseEnvelopes (rows.take limit)).length = (rows.take limit).length by omega)
      have hlen : limit ≤ rows.length := by
        rw [List.length_take] at hle
        omega
      rw [List.append_cancel_right_eq, hides_drop hlimit hread]
      refine visited_eq_iff hlimit fuel (rows.drop limit) ?_
      rw [List.length_drop]
      omega

/-! ### Following the pages -/

section
variable {table : EventTable} {workerId : Option String}

variable (workerId) in
theorem mem_newestFirst {row : StoredEvent} (h : row ∈ table.newestFirst workerId) :
    row ∈ table.rows := by
  rw [EventTable.newestFirst, List.mem_reverse, Lib.mem_ordered] at h
  exact (List.mem_filter.1 h).1

/-- The page before an event is the first window behind its row. -/
theorem selectEventsBefore_eq {front rest : List StoredEvent} {cursor : StoredEvent} (limit : Nat)
    (h : table.newestFirst workerId = front ++ cursor :: rest) :
    table.selectEventsBefore cursor.id limit workerId =
      some (parseEnvelopes (rest.take limit)).reverse := by
  have hmem : cursor ∈ table.rows := mem_newestFirst workerId (by rw [h]; simp)
  have hfind : table.rows.find? (fun row => row.id = cursor.id) = some cursor :=
    Lib.find_key_eq_some table.ids hmem
  have hnodup : ((table.rows.filter (workerFilter workerId)).map pageKey).Nodup :=
    (List.filter_sublist.map pageKey).nodup table.nodup_pageKey
  have hordered : Lib.ordered pageKey (table.rows.filter (workerFilter workerId)) =
      rest.reverse ++ cursor :: front.reverse := by
    have hrev := congrArg List.reverse h
    rw [EventTable.newestFirst, List.reverse_reverse] at hrev
    rw [hrev]
    simp
  have hbefore : Lib.ordered pageKey (table.rows.filter fun row =>
      pageKey row < pageKey cursor && workerFilter workerId row) = rest.reverse := by
    rw [← List.filter_filter, Lib.ordered_filter hnodup, hordered]
    refine Lib.filter_lt_of_split ?_
    rw [← hordered]
    exact Lib.ascending_ordered hnodup
  rw [EventTable.selectEventsBefore, hfind, Option.map_some, hbefore, List.reverse_reverse]

/-- A page that is full ends with an event of the last row of its window. -/
theorem oldest_of_full {limit : Nat} (hlimit : 0 < limit) {rows : List StoredEvent}
    (hmem : ∀ row ∈ rows, row ∈ table.rows)
    (hfull : ¬ (parseEnvelopes (rows.take limit)).reverse.length < limit) :
    ∃ window oldest, rows = window ++ oldest :: rows.drop limit ∧
      (parseEnvelopes (rows.take limit)).reverse.head?.bind eventId = some oldest.id := by
  have hle := length_parseEnvelopes_le (rows.take limit)
  rw [List.length_reverse] at hfull
  have htake : (rows.take limit).length ≤ limit := by
    rw [List.length_take]
    exact Nat.min_le_left _ _
  have hread := (length_parseEnvelopes_iff _).1
    (show (parseEnvelopes (rows.take limit)).length = (rows.take limit).length by omega)
  obtain ⟨window, oldest, hwindow⟩ : ∃ window oldest, rows.take limit = window ++ [oldest] := by
    refine (List.eq_nil_or_concat' (rows.take limit)).resolve_left ?_
    intro hnil
    rw [hnil, parseEnvelopes, List.filterMap_nil, List.length_nil] at hfull
    exact hfull hlimit
  refine ⟨window, oldest, ?_, ?_⟩
  · have hsplit := (List.take_append_drop limit rows).symm
    rw [hwindow, List.append_assoc, List.singleton_append] at hsplit
    exact hsplit
  · have holdest : oldest ∈ rows.take limit := by
      rw [hwindow]
      simp
    obtain ⟨event, hevent⟩ := Option.isSome_iff_exists.1 (hread oldest holdest)
    have hlast : parseEnvelopes [oldest] = [event] := List.filterMap_cons_some hevent
    rw [hwindow, parseEnvelopes_append, hlast, List.reverse_append]
    exact table.named oldest (hmem oldest (List.mem_of_mem_take holdest)) event hevent

end

namespace EventLog

/-- The history is open, and can be read. -/
structure Open (h : EventLog) : Prop where
  opened : h.opened = true
  writing : h.writing = true
  readable : h.readable = true

variable {h : EventLog} {workerId : Option String} {limit : Nat}

theorem replayPage_newest (hopen : h.Open) (ring : List Json) :
    h.replayPage ring false none limit workerId =
      .events (parseEnvelopes ((h.table.newestFirst workerId).take limit)).reverse := by
  simp [replayPage, hopen.opened, hopen.writing, hopen.readable, EventTable.selectNewestEvents]

theorem replayPage_before (hopen : h.Open) (ring : List Json) {front rest : List StoredEvent}
    {cursor : StoredEvent} (hrows : h.table.newestFirst workerId = front ++ cursor :: rest) :
    h.replayPage ring false (some cursor.id) limit workerId =
      .events (parseEnvelopes (rest.take limit)).reverse := by
  simp [replayPage, hopen.opened, hopen.writing, hopen.readable, selectEventsBefore_eq limit hrows]

/-- Behind a row the pages are the windows of the rows behind it. -/
theorem followPages_before (hopen : h.Open) (ring : List Json) (hlimit : 0 < limit) :
    ∀ (fuel : Nat) (front rest : List StoredEvent) (cursor : StoredEvent),
      h.table.newestFirst workerId = front ++ cursor :: rest →
      h.followPages ring limit workerId fuel (some cursor.id) = visited limit fuel rest
  | 0, _, _, _, _ => rfl
  | fuel + 1, front, rest, cursor, hrows => by
    rw [followPages, replayPage_before hopen ring hrows, visited]
    dsimp only
    split
    · rfl
    · rename_i hfull
      have hmem : ∀ row ∈ rest, row ∈ h.table.rows := fun row hrow =>
        mem_newestFirst workerId (by rw [hrows]; simp [hrow])
      obtain ⟨window, oldest, hrest, hid⟩ := oldest_of_full hlimit hmem hfull
      rw [hid]
      dsimp only
      rw [followPages_before hopen ring hlimit fuel (front ++ cursor :: window) (rest.drop limit)
        oldest (by rw [hrows, List.append_assoc, List.cons_append, ← hrest])]

/-- Following the pages back visits every event of the filter that can be read once, in order,
    exactly when no window of rows with an unreadable one has a readable one behind it. -/
theorem pages_complete_iff (h : EventLog) (hopen : h.Open) (ring : List Json) (limit : Nat)
    (hlimit : 0 < limit) (workerId : Option String) (fuel : Nat)
    (hfuel : h.table.rows.length < fuel) :
    h.followPages ring limit workerId fuel none =
        parseEnvelopes (Lib.ordered pageKey (h.table.rows.filter (workerFilter workerId))) ↔
      hides limit (h.table.newestFirst workerId) = false := by
  have hvisited : h.followPages ring limit workerId fuel none =
      visited limit fuel (h.table.newestFirst workerId) := by
    obtain ⟨fuel, rfl⟩ : ∃ k, fuel = k + 1 := ⟨fuel - 1, by omega⟩
    rw [followPages, replayPage_newest hopen ring, visited]
    dsimp only
    split
    · rfl
    · rename_i hfull
      obtain ⟨window, oldest, hrows, hid⟩ := oldest_of_full hlimit
        (fun row hrow => mem_newestFirst workerId hrow) hfull
      rw [hid]
      dsimp only
      rw [followPages_before hopen ring hlimit fuel window _ oldest hrows]
  have hall : (parseEnvelopes (h.table.newestFirst workerId)).reverse =
      parseEnvelopes (Lib.ordered pageKey (h.table.rows.filter (workerFilter workerId))) := by
    rw [EventTable.newestFirst, parseEnvelopes, parseEnvelopes, ← List.filterMap_reverse,
      List.reverse_reverse]
  have hlen : (h.table.newestFirst workerId).length < fuel := by
    have hfilter := List.length_filter_le (workerFilter workerId) h.table.rows
    rw [EventTable.newestFirst, List.length_reverse, Lib.length_ordered]
    omega
  rw [hvisited, ← hall]
  exact visited_eq_iff hlimit fuel _ hlen

/-- An event of a device, of the time of its number. -/
def deviceEvent (n : Nat) : BusEvent :=
  ⟨"evt_" ++ toString n, n, n, [("event", .string "device.ready")], some 10⟩

/-- Three events, of which the one in the middle can no longer be read. -/
def damaged : EventTable where
  rows :=
    [⟨1, "evt_1", 1, 1, 10, some (deviceEvent 1).json⟩, ⟨2, "evt_2", 2, 2, 10, none⟩,
      ⟨3, "evt_3", 3, 3, 10, some (deviceEvent 3).json⟩]
  rowids := by decide
  ids := by decide
  named := by
    intro row hrow event hevent
    simp only [List.mem_cons, List.not_mem_nil, or_false] at hrow
    rcases hrow with rfl | rfl | rfl
    · rw [← (Option.filter_eq_some_iff.1 hevent).1 |> Option.some.inj]
      decide +kernel
    · cases hevent
    · rw [← (Option.filter_eq_some_iff.1 hevent).1 |> Option.some.inj]
      decide +kernel

/-- Pages of three hide nothing behind the row that cannot be read. -/
theorem pages_complete_damaged :
    (start roomForOne damaged).followPages [] 3 none 4 none =
      parseEnvelopes (Lib.ordered pageKey (damaged.rows.filter (workerFilter none))) :=
  (pages_complete_iff (start roomForOne damaged) ⟨rfl, rfl, rfl⟩ [] 3 (by decide) none 4
    (by decide)).2 (by decide +kernel)

/-- Pages of two stop at it, with one event still to come. -/
theorem pages_stop_at_damage :
    ((start roomForOne damaged).followPages [] 2 none 4 none).length = 1 ∧
      (parseEnvelopes (Lib.ordered pageKey
        (damaged.rows.filter (workerFilter none)))).length = 2 := by
  decide +kernel

end EventLog

end Simlock.History
