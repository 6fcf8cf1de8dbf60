import Simlock.History.EventTable
import Simlock.Lib.Run

/-! How many bytes the history holds.

    The figure is counted once, when the table is opened, and moved with every row stored and every
    row a pruning deletes; when a pruning fails part way the rows are counted again. Every statement
    and every transaction may fail, and one that fails leaves the table as it was.

    The pruning deletes what is older than the retention, and then the oldest rows, a thousand at a
    time, until the rest fits. -/

namespace Simlock.History

def sizeStepRows : Nat := 1000

/-- `eventLog.retention` and `eventLog.maxBytes`. -/
structure EventLogConfig where
  retention : ℚ
  maxBytes : Nat

/-! ### Pruning -/

/-- The transaction of a pruning that fails: the delete by age, a delete by size, the projections'
    own pruning, or what is done to the file afterwards. -/
inductive PruneFault where
  | age
  | size (step : Nat)
  | projections
  | upkeep
  deriving DecidableEq

/-- What a pruning did: the table, and the bytes it counts then; nothing if it failed. -/
structure Pruned where
  table : EventTable
  total : Option ℤ

/-- The rows older than the cutoff go. -/
def ageStep (table : EventTable) (cutoff : ℚ) : EventTable :=
  table.keep fun row => cutoff ≤ row.timestamp

/-- The oldest thousand rows. -/
def oldestRows (table : EventTable) : List Nat :=
  ((oldestFirst table.rows).take sizeStepRows).map StoredEvent.rowid

def sizeStep (table : EventTable) : EventTable :=
  table.keep fun row => row.rowid ∉ oldestRows table

/-- `SUM(size)` of the rows that go. -/
def removedBytes (table : EventTable) (p : StoredEvent → Bool) : Nat := totalSize (table.rows.filter p)

/-- The deletes by size, from a step on. -/
def sizeLoop (maxBytes : Nat) (fault : Option PruneFault) :
    Nat → Nat → EventTable → ℤ → Pruned
  | 0, _, table, total => ⟨table, some total⟩
  | fuel + 1, step, table, total =>
    if total ≤ maxBytes then ⟨table, some total⟩
    else if fault = some (.size step) then ⟨table, none⟩
    else if table.rows.length - (sizeStep table).rows.length = 0 then ⟨sizeStep table, some total⟩
    else
      sizeLoop maxBytes fault fuel (step + 1) (sizeStep table)
        (total - removedBytes table fun row => row.rowid ∈ oldestRows table)

/-- A pass of the loop for every row is more than there are. -/
def sizeLoopFuel (table : EventTable) : Nat := table.rows.length + 1

def pruneHistory (config : EventLogConfig) (table : EventTable) (now : ℚ) (storedBytes : ℤ)
    (fault : Option PruneFault) : Pruned :=
  let cutoff := now - config.retention
  if fault = some .age then ⟨table, none⟩
  else
    let aged := ageStep table cutoff
    let trimmed := sizeLoop config.maxBytes fault (sizeLoopFuel aged) 0 aged
      (storedBytes - removedBytes table fun row => row.timestamp < cutoff)
    if fault = some .projections || fault = some .upkeep then ⟨trimmed.table, none⟩ else trimmed

/-! ### The history -/

/-- The statement of a write that fails. -/
inductive WriteFault where
  | insert
  | projection
  | commit
  deriving DecidableEq

structure EventLog where
  config : EventLogConfig
  table : EventTable
  stored : ℤ
  opened : Bool
  writing : Bool
  readable : Bool

namespace EventLog

/-- The history opens a file. -/
def start (config : EventLogConfig) (table : EventTable) : EventLog where
  config := config
  table := table
  stored := table.totalEventBytes
  opened := true
  writing := true
  readable := true

variable (h : EventLog)

/-- `#write`; a projection sees only an event that was added. -/
def write (event : BusEvent) (fault : Option WriteFault) : EventLog :=
  if !h.opened || !h.writing then h
  else
    match event.size with
    | none => h
    | some size =>
      let added := !h.table.holds event.id
      match fault with
      | some .insert => { h with writing := false, readable := false }
      | some .commit => { h with writing := false, readable := false }
      | some .projection =>
        if added then { h with writing := false } else h
      | none =>
        { h with
          table := h.table.insertOrIgnore event size
          stored := h.stored + if added then (size : ℤ) else 0 }

def pruned (now : ℚ) (fault : Option PruneFault) : Pruned :=
  pruneHistory h.config h.table now h.stored fault

/-- `#prune`; after a failure the rows are counted again, if that does not fail as well. -/
def prune (now : ℚ) (fault : Option PruneFault) (recounts : Bool) : EventLog :=
  if !h.opened then h
  else
    { h with
      table := (h.pruned now fault).table
      stored :=
        match (h.pruned now fault).total with
        | some total => total
        | none => if recounts then (h.pruned now fault).table.totalEventBytes else h.stored }

def stop : EventLog := { h with opened := false, writing := false }

inductive Action where
  | write (event : BusEvent) (fault : Option WriteFault)
  | prune (now : ℚ) (fault : Option PruneFault) (recounts : Bool)
  | stop

def step : Action → EventLog
  | .write event fault => h.write event fault
  | .prune now fault recounts => h.prune now fault recounts
  | .stop => h.stop

end EventLog

/-! ### What the deletes leave -/

theorem totalSize_filter (p : StoredEvent → Bool) : ∀ rows : List StoredEvent,
    totalSize (rows.filter p) + totalSize (rows.filter fun row => !p row) = totalSize rows
  | [] => rfl
  | row :: rows => by
    have ih := totalSize_filter p rows
    unfold totalSize at ih ⊢
    cases hp : p row <;> simp [hp] <;> omega

theorem totalSize_oldestFirst (rows : List StoredEvent) :
    totalSize (oldestFirst rows) = totalSize rows :=
  ((Lib.ordered_perm pruneKey rows).map StoredEvent.size).sum_eq

theorem bytes_ageStep (table : EventTable) (cutoff : ℚ) :
    ((ageStep table cutoff).totalEventBytes : ℤ) =
      table.totalEventBytes - removedBytes table fun row => row.timestamp < cutoff := by
  have hsplit := totalSize_filter (fun row => decide (row.timestamp < cutoff)) table.rows
  have hkept : (ageStep table cutoff).rows =
      table.rows.filter fun row => !decide (row.timestamp < cutoff) := by
    refine List.filter_congr fun row _ => ?_
    rw [← decide_not]
    exact decide_eq_decide.2 not_lt.symm
  rw [EventTable.totalEventBytes, hkept, EventTable.totalEventBytes, removedBytes]
  omega

theorem bytes_sizeStep (table : EventTable) :
    ((sizeStep table).totalEventBytes : ℤ) =
      table.totalEventBytes - removedBytes table fun row => row.rowid ∈ oldestRows table := by
  have hsplit := totalSize_filter (fun row => decide (row.rowid ∈ oldestRows table)) table.rows
  have hkept : (sizeStep table).rows =
      table.rows.filter fun row => !decide (row.rowid ∈ oldestRows table) :=
    List.filter_congr fun row _ => decide_not
  rw [EventTable.totalEventBytes, hkept, EventTable.totalEventBytes, removedBytes]
  omega

/-- A delete by size takes the first thousand away. -/
theorem oldestFirst_sizeStep (table : EventTable) :
    oldestFirst (sizeStep table).rows = (oldestFirst table.rows).drop sizeStepRows := by
  have hnodup : ((oldestFirst table.rows).map StoredEvent.rowid).Nodup :=
    ((Lib.ordered_perm pruneKey table.rows).map StoredEvent.rowid).nodup_iff.2 table.rowids
  rw [← Lib.filter_not_mem_take hnodup sizeStepRows]
  exact Lib.ordered_filter table.nodup_pruneKey _

/-- A delete by size that deletes nothing found nothing. -/
theorem rows_of_sizeStep {table : EventTable}
    (h : table.rows.length - (sizeStep table).rows.length = 0) : table.rows = [] := by
  have hlen := congrArg List.length (oldestFirst_sizeStep table)
  rw [oldestFirst, oldestFirst, Lib.length_ordered, List.length_drop, Lib.length_ordered] at hlen
  have hstep : 0 < sizeStepRows := by decide
  exact List.length_eq_zero_iff.1 (by omega)

/-- The oldest rows went, `batch` at a time, and each time the rest did not fit. -/
def Trimmed (batch maxBytes : Nat) (before after : EventTable) : Prop :=
  ∃ k, oldestFirst after.rows = (oldestFirst before.rows).drop (batch * k) ∧
    ∀ j < k, maxBytes < totalSize ((oldestFirst before.rows).drop (batch * j))

theorem Trimmed.refl (batch maxBytes : Nat) (table : EventTable) :
    Trimmed batch maxBytes table table := by
  refine ⟨0, ?_, fun j hj => absurd hj (Nat.not_lt_zero j)⟩
  rw [Nat.mul_zero, List.drop_zero]

/-- A delete by size, and the rest of the trimming. -/
theorem Trimmed.cons {maxBytes : Nat} {table after : EventTable}
    (hover : maxBytes < table.totalEventBytes)
    (h : Trimmed sizeStepRows maxBytes (sizeStep table) after) :
    Trimmed sizeStepRows maxBytes table after := by
  obtain ⟨k, hafter, hneeded⟩ := h
  have hdrop : ∀ j, (oldestFirst (sizeStep table).rows).drop (sizeStepRows * j) =
      (oldestFirst table.rows).drop (sizeStepRows * (j + 1)) := by
    intro j
    rw [oldestFirst_sizeStep, List.drop_drop, Nat.mul_succ, Nat.add_comm]
  refine ⟨k + 1, by rw [hafter, hdrop], fun j hj => ?_⟩
  cases j with
  | zero =>
    rw [Nat.mul_zero, List.drop_zero, totalSize_oldestFirst]
    exact hover
  | succ j =>
    rw [← hdrop]
    exact hneeded j (by omega)

/-- What a pruning leaves: it counted the rows right, and they fit or there are none. -/
structure Accepts (maxBytes : Nat) (pruned : Pruned) : Prop where
  counted : ∀ total, pruned.total = some total → total = pruned.table.totalEventBytes
  fits : ∀ total, pruned.total = some total →
    pruned.table.totalEventBytes ≤ maxBytes ∨ pruned.table.rows = []

/-- The deletes by size, from a figure that is right. -/
theorem sizeLoop_spec (maxBytes : Nat) (fault : Option PruneFault) :
    ∀ (fuel step : Nat) (table : EventTable) (total : ℤ), total = table.totalEventBytes →
      table.rows.length < fuel →
      Trimmed sizeStepRows maxBytes table (sizeLoop maxBytes fault fuel step table total).table ∧
        Accepts maxBytes (sizeLoop maxBytes fault fuel step table total)
  | 0, step, table, total, _, hfuel => absurd hfuel (Nat.not_lt_zero _)
  | fuel + 1, step, table, total, htotal, hfuel => by
    rw [sizeLoop]
    split
    · rename_i hle
      refine ⟨.refl _ _ _, ⟨?_, ?_⟩⟩
      · rintro t ⟨⟩
        exact htotal
      · rintro t ⟨⟩
        left
        dsimp only
        omega
    · rename_i hover
      have hbytes : maxBytes < table.totalEventBytes := by omega
      split
      · exact ⟨.refl _ _ _, ⟨nofun, nofun⟩⟩
      · split
        · -- nothing was left to delete, so nothing was over the limit
          rename_i hnone
          have hnil := rows_of_sizeStep hnone
          rw [EventTable.totalEventBytes, hnil] at hbytes
          exact absurd hbytes (Nat.not_lt_zero _)
        · rename_i hsome
          obtain ⟨htrimmed, hfits⟩ := sizeLoop_spec maxBytes fault fuel (step + 1) (sizeStep table)
            (total - removedBytes table fun row => row.rowid ∈ oldestRows table)
            (by rw [bytes_sizeStep, htotal]) (by omega)
          exact ⟨.cons hbytes htrimmed, hfits⟩

/-- The table the deletes by size start from. -/
def agedBy (config : EventLogConfig) (table : EventTable) (now : ℚ) (fault : Option PruneFault) :
    EventTable :=
  if fault = some .age then table else ageStep table (now - config.retention)

/-- A pruning, from a figure that is right. -/
theorem pruneHistory_spec (config : EventLogConfig) (table : EventTable) (now : ℚ) (stored : ℤ)
    (fault : Option PruneFault) (hstored : stored = table.totalEventBytes) :
    Trimmed sizeStepRows config.maxBytes (agedBy config table now fault)
        (pruneHistory config table now stored fault).table ∧
      Accepts config.maxBytes (pruneHistory config table now stored fault) := by
  unfold pruneHistory agedBy
  dsimp only
  split
  · exact ⟨.refl _ _ _, ⟨nofun, nofun⟩⟩
  · obtain ⟨htrimmed, hfits⟩ := sizeLoop_spec config.maxBytes fault
      (sizeLoopFuel (ageStep table (now - config.retention))) 0
      (ageStep table (now - config.retention))
      (stored - removedBytes table fun row => row.timestamp < now - config.retention)
      (by rw [bytes_ageStep, hstored]) (Nat.lt_succ_self _)
    split
    · exact ⟨htrimmed, ⟨nofun, nofun⟩⟩
    · exact ⟨htrimmed, hfits⟩

/-! ### The figure -/

namespace EventLog

/-- The figure is the size of the stored events. -/
def Exact (h : EventLog) : Prop := h.stored = h.table.totalEventBytes

/-- A pruning does not fail after deleting rows with the count of the rest failing as well. -/
def Recounted (h : EventLog) : Action → Prop
  | .prune now fault false => (h.pruned now fault).total = none →
    (h.pruned now fault).table.totalEventBytes = h.table.totalEventBytes
  | _ => True

theorem Exact.start (config : EventLogConfig) (table : EventTable) : (start config table).Exact :=
  rfl

variable {h : EventLog}

theorem bytes_insertOrIgnore (table : EventTable) (event : BusEvent) (size : Nat) :
    (table.insertOrIgnore event size).totalEventBytes =
      table.totalEventBytes + if table.holds event.id then 0 else size := by
  unfold EventTable.insertOrIgnore
  split
  · rename_i hnew
    rw [if_neg (by rw [hnew]; decide)]
    simp [EventTable.insertNew, EventTable.totalEventBytes, totalSize, EventTable.newRow]
  · rename_i hheld
    rw [if_pos (by simpa using hheld), Nat.add_zero]

theorem Exact.write (hexact : h.Exact) (event : BusEvent) (fault : Option WriteFault) :
    (h.write event fault).Exact := by
  unfold EventLog.write
  split
  · exact hexact
  · split
    · exact hexact
    · rename_i size hsize
      dsimp only
      split
      · exact hexact
      · exact hexact
      · split <;> exact hexact
      · unfold Exact
        dsimp only
        rw [bytes_insertOrIgnore, hexact]
        cases h.table.holds event.id <;> simp

theorem Exact.prune (hexact : h.Exact) (now : ℚ) (fault : Option PruneFault) (recounts : Bool)
    (hok : h.Recounted (.prune now fault recounts)) : (h.prune now fault recounts).Exact := by
  unfold EventLog.prune
  split
  · exact hexact
  · unfold Exact
    dsimp only
    have hspec := (pruneHistory_spec h.config h.table now h.stored fault hexact).2
    cases htotal : (h.pruned now fault).total with
    | some total => exact hspec.counted total htotal
    | none =>
      cases recounts with
      | true => rfl
      | false => exact hexact.trans (congrArg _ (hok htotal)).symm

theorem Exact.step (hexact : h.Exact) (a : Action) (hok : h.Recounted a) : (h.step a).Exact := by
  cases a with
  | write event fault => exact hexact.write event fault
  | prune now fault recounts => exact hexact.prune now fault recounts hok
  | stop => exact hexact

/-- After any writes, failed or not, and any prunings, the figure is the size of the stored events,
    unless a pruning failed after deleting rows and their count failed too. A pruning takes the rows
    past the retention, then the oldest by the thousand while the rest is too large, and one that
    does not fail leaves what fits, or nothing. -/
theorem event_log_accounting (config : EventLogConfig) (table : EventTable) (acts : List Action)
    (hacts : Lib.AllSteps EventLog.step Recounted (start config table) acts) :
    (Lib.run EventLog.step (start config table) acts).Exact ∧
      ∀ (now : ℚ) (fault : Option PruneFault),
        let h := Lib.run EventLog.step (start config table) acts
        Trimmed sizeStepRows h.config.maxBytes (agedBy h.config h.table now fault)
            (h.pruned now fault).table ∧
          Accepts h.config.maxBytes (h.pruned now fault) := by
  have hexact : (Lib.run EventLog.step (start config table) acts).Exact :=
    Lib.run_invariant_of_allSteps (I := Exact) (fun h a hok hexact => hexact.step a hok) acts
      (start config table) (Exact.start config table) hacts
  exact ⟨hexact, fun now fault => pruneHistory_spec _ _ now _ fault hexact⟩

/-- An event of ten bytes. -/
def tenBytes (id : String) : BusEvent := ⟨id, 0, 1, [], some 10⟩

/-- Room for one of them. -/
def roomForOne : EventLogConfig := ⟨100, 10⟩

def writtenTwice : List Action :=
  [.write (tenBytes "evt_a") none, .write (tenBytes "evt_a") none,
    .write (tenBytes "evt_b") (some .commit), .prune 50 (some .projections) true]

theorem event_log_accounting_writtenTwice :
    (Lib.run EventLog.step (start roomForOne .empty) writtenTwice).Exact ∧
      (Lib.run EventLog.step (start roomForOne .empty) writtenTwice).stored = 10 :=
  ⟨(event_log_accounting roomForOne .empty writtenTwice
    ⟨trivial, trivial, trivial, trivial, trivial⟩).1, by decide +kernel⟩

def two : List Action := [.write (tenBytes "evt_a") none, .write (tenBytes "evt_b") none]

/-- With room for one of two events a pruning deletes both; and when its last transaction fails, and
    the count after it, the figure still has both. -/
theorem prunes_both_and_drifts :
    ¬ Trimmed 1 roomForOne.maxBytes (Lib.run EventLog.step (start roomForOne .empty) two).table
        ((Lib.run EventLog.step (start roomForOne .empty) two).pruned 50 none).table ∧
      ¬ (Lib.run EventLog.step (start roomForOne .empty)
        (two ++ [.prune 50 (some .projections) false])).Exact := by
  constructor
  · rintro ⟨k, hafter, hneeded⟩
    have hlen := congrArg List.length hafter
    have hnone : (oldestFirst ((Lib.run EventLog.step (start roomForOne .empty) two).pruned 50
        none).table.rows).length = 0 := by decide +kernel
    have htwo : (oldestFirst (Lib.run EventLog.step (start roomForOne .empty) two).table.rows).length
        = 2 := by decide +kernel
    rw [hnone, List.length_drop, htwo] at hlen
    have hone : totalSize ((oldestFirst (Lib.run EventLog.step (start roomForOne .empty)
        two).table.rows).drop (1 * 1)) = 10 := by decide +kernel
    have hover := hneeded 1 (by omega)
    rw [hone] at hover
    exact absurd hover (by decide)
  · unfold Exact
    decide +kernel

end EventLog

end Simlock.History
