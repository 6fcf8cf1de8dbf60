import Simlock.History.Projector

/-! Two boards that show the same.

    A live board and a replayed one get the same levels, but may get the platforms of a worker in
    another order: the live projector reads its counts back from the tables, the replay has counted
    on. A level of one platform touches only that platform's column of the board, so the order does
    not show. `Since` says of the minute rows that none is older than the history. -/

namespace Simlock.History

open Core (Platform)
open Lib (Tally)

theorem minuteOf_le (t : ℚ) : minuteOf t ≤ t := by
  unfold minuteOf
  have hms : (0 : ℚ) < minuteMs := by norm_num [minuteMs]
  exact (le_div_iff₀ hms).mp (Int.floor_le (t / minuteMs))

namespace KeyMinutes

/-- No row is of a minute before `from`. -/
def Since (minute : ℚ) (rows : List MinuteRow) : Prop := ∀ r ∈ rows, minute ≤ r.minute

theorem minuteOf_mono {s t : ℚ} (h : s ≤ t) : minuteOf s ≤ minuteOf t := by
  unfold minuteOf
  have hms : (0 : ℚ) < minuteMs := by norm_num [minuteMs]
  have hdiv : s / minuteMs ≤ t / minuteMs := div_le_div_of_nonneg_right h hms.le
  have hfloor : (⌊s / minuteMs⌋ : ℚ) ≤ ⌊t / minuteMs⌋ := by exact_mod_cast Int.floor_le_floor hdiv
  exact mul_le_mul_of_nonneg_right hfloor hms.le

theorem Since.closeKey {minute : ℚ} {rows : List MinuteRow} (h : Since minute rows) :
    Since minute (closeKey rows) := by
  intro r hr
  obtain ⟨r', hr', rfl⟩ := List.mem_map.mp hr
  split <;> exact h r' hr'

theorem Since.save {minute : ℚ} {rows : List MinuteRow} (h : Since minute rows) {row : MinuteRow}
    (hrow : minute ≤ row.minute) : Since minute (save rows row) := by
  unfold KeyMinutes.save
  induction rows with
  | nil =>
    intro r hr
    rw [List.mem_singleton.mp hr]
    exact hrow
  | cons r' rows ih =>
    have hrest : Since minute rows := fun r hr => h r (List.mem_cons_of_mem _ hr)
    rw [Lib.upsert]
    split
    · exact List.forall_mem_cons.mpr ⟨hrow, hrest⟩
    · exact List.forall_mem_cons.mpr ⟨h r' List.mem_cons_self, ih hrest⟩

theorem load_minute {rows : List MinuteRow} {minute : ℚ} {row : MinuteRow}
    (h : load rows minute = some row) : row.minute = minute := by
  simpa using List.find?_some h

theorem rowFor_minute (rows : List MinuteRow) (state : KeyState) (minute atMs : ℚ) :
    (rowFor rows state minute atMs).minute = minute := by
  unfold rowFor
  dsimp only
  split
  · split <;> rfl
  · rename_i stored hstored
    have hminute := load_minute hstored
    split <;> exact hminute

variable {m : KeyMinutes} {minute : ℚ}

theorem Since.opened (h : Since minute m.rows) : Since minute m.opened.1 := by
  unfold KeyMinutes.opened
  split
  · exact h
  · exact h.closeKey

theorem Since.step (h : Since minute m.rows) (value : UsageValue) (level : ℚ) {timestamp : ℚ}
    (ht : minute ≤ minuteOf timestamp) : Since minute (m.step value level timestamp).rows := by
  unfold KeyMinutes.step
  dsimp only
  split
  · exact h.opened
  · refine h.opened.save ?_
    change minute ≤ (rowFor _ _ _ _).minute
    rw [rowFor_minute]
    exact ht.trans (minuteOf_mono (le_max_left _ _))

theorem Since.cut (h : Since minute m.rows) {timestamp : ℚ} (ht : minute ≤ minuteOf timestamp) :
    Since minute (m.cut timestamp).rows := by
  have hat : ∀ lastAt, minute ≤ minuteOf (max timestamp lastAt) :=
    fun lastAt => ht.trans (minuteOf_mono (le_max_left _ _))
  unfold KeyMinutes.cut
  split
  · rename_i state hstate
    split
    · unfold KeyMinutes.ended
      dsimp only
      cases hload : load m.rows (minuteOf (max timestamp state.lastAt)) with
      | some row =>
        refine h.save ?_
        change minute ≤ row.minute
        rw [load_minute hload]
        exact hat _
      | none =>
        dsimp only
        by_cases hlate : minuteOf (max timestamp state.lastAt) < max timestamp state.lastAt
        · rw [if_pos hlate]
          exact h.save (hat _)
        · rw [if_neg hlate]
          dsimp only
          split
          · rename_i lastRow hlast
            exact h.save (h lastRow (List.mem_of_find?_eq_some hlast))
          · exact h
    · exact h
  · exact h

theorem Since.closeOpenRows (h : Since minute m.rows) : Since minute m.closeOpenRows.rows := by
  unfold KeyMinutes.closeOpenRows
  split
  · exact h.closeKey
  · exact h

end KeyMinutes

namespace Board

/-- The minute rows are of the history's minutes. -/
def Since (minute : ℚ) (b : Board) : Prop := ∀ w p, KeyMinutes.Since minute (b.minutes w p).rows

/-- The two boards show the same, whatever order a worker's platforms came in. -/
structure Same (b b' : Board) : Prop where
  minutes : b'.minutes = b.minutes
  levels : b'.levels = b.levels
  connected : b'.connected = b.connected
  platforms : ∀ w p, p ∈ b'.levelPlatforms w ↔ p ∈ b.levelPlatforms w
  nodup : ∀ w, (b.levelPlatforms w).Nodup
  nodup' : ∀ w, (b'.levelPlatforms w).Nodup

theorem Same.right {b b' : Board} (h : Same b b') : Same b' b' :=
  ⟨rfl, rfl, rfl, fun _ _ => Iff.rfl, h.nodup', h.nodup'⟩

theorem Same.trans {b b' b'' : Board} (h : Same b b') (k : Same b' b'') : Same b b'' :=
  ⟨k.minutes.trans h.minutes, k.levels.trans h.levels, k.connected.trans h.connected,
    fun w p => (k.platforms w p).trans (h.platforms w p), h.nodup, k.nodup'⟩

theorem Same.perm {b b' : Board} (h : Same b b') (w : String) :
    (b.levelPlatforms w).Perm (b'.levelPlatforms w) :=
  (List.perm_ext_iff_of_nodup (h.nodup w) (h.nodup' w)).mpr fun p => (h.platforms w p).symm

/-! ### One column -/

/-- A change of the column `platform` alone: what it makes of it depends on the column only. -/
structure Column (f : Board → Board) (platform : RowPlatform) : Prop where
  minutes_ne : ∀ b w p, p ≠ platform → (f b).minutes w p = b.minutes w p
  levels_ne : ∀ b w p, p ≠ platform → (f b).levels w p = b.levels w p
  minutes : ∀ b b', (∀ w, b'.minutes w platform = b.minutes w platform) →
    (∀ w, b'.levels w platform = b.levels w platform) → b'.connected = b.connected →
      ∀ w, (f b').minutes w platform = (f b).minutes w platform
  levels : ∀ b b', (∀ w, b'.levels w platform = b.levels w platform) →
    ∀ w, (f b').levels w platform = (f b).levels w platform
  connected : ∀ b, (f b).connected = b.connected
  platforms : ∃ ws : String → Prop, ∀ b w p,
    p ∈ (f b).levelPlatforms w ↔ p ∈ b.levelPlatforms w ∨ ws w ∧ p = platform
  nodup : ∀ b, (∀ w, (b.levelPlatforms w).Nodup) → ∀ w, ((f b).levelPlatforms w).Nodup

section
variable {f g : Board → Board} {p q : RowPlatform}

theorem Column.id (p : RowPlatform) : Column id p :=
  ⟨fun _ _ _ _ => rfl, fun _ _ _ _ => rfl, fun _ _ hm _ _ => hm, fun _ _ hl => hl, fun _ => rfl,
    ⟨fun _ => False, fun _ _ _ => by simp⟩, fun _ h => h⟩

theorem Column.comp (hf : Column f p) (hg : Column g p) : Column (fun b => g (f b)) p := by
  obtain ⟨ws, hws⟩ := hf.platforms
  obtain ⟨ws', hws'⟩ := hg.platforms
  refine ⟨fun b w r hr => ?_, fun b w r hr => ?_, fun b b' hm hl hc => ?_, fun b b' hl => ?_,
    fun b => ?_, ⟨fun w => ws w ∨ ws' w, fun b w r => ?_⟩, fun b hb => ?_⟩
  · rw [hg.minutes_ne _ w r hr, hf.minutes_ne b w r hr]
  · rw [hg.levels_ne _ w r hr, hf.levels_ne b w r hr]
  · refine hg.minutes _ _ (hf.minutes b b' hm hl hc) (hf.levels b b' hl) ?_
    rw [hf.connected, hf.connected, hc]
  · exact hg.levels _ _ (hf.levels b b' hl)
  · rw [hg.connected, hf.connected]
  · rw [hws', hws]
    tauto
  · exact hg.nodup _ (hf.nodup b hb)

theorem Column.same (hf : Column f p) {b b' : Board} (h : Same b b') : Same (f b) (f b') := by
  obtain ⟨ws, hws⟩ := hf.platforms
  refine ⟨?_, ?_, ?_, fun w r => ?_, hf.nodup b h.nodup, hf.nodup b' h.nodup'⟩
  · funext w r
    by_cases hr : r = p
    · subst hr
      exact hf.minutes b b' (fun w => by rw [h.minutes]) (fun w => by rw [h.levels]) h.connected w
    · rw [hf.minutes_ne b' w r hr, hf.minutes_ne b w r hr, h.minutes]
  · funext w r
    by_cases hr : r = p
    · subst hr
      exact hf.levels b b' (fun w => by rw [h.levels]) w
    · rw [hf.levels_ne b' w r hr, hf.levels_ne b w r hr, h.levels]
  · rw [hf.connected, hf.connected, h.connected]
  · rw [hws, hws, h.platforms]

/-- Changes of two columns can be made in either order. -/
theorem Column.swap (hf : Column f p) (hg : Column g q) (hpq : p ≠ q) {b b' : Board}
    (h : Same b b') : Same (g (f b)) (f (g b')) := by
  have hb : Same (f (g b)) (f (g b')) := hf.same (hg.same h)
  obtain ⟨ws, hws⟩ := hf.platforms
  obtain ⟨ws', hws'⟩ := hg.platforms
  refine Same.trans ⟨?_, ?_, ?_, fun w r => ?_, ?_, ?_⟩ hb
  · funext w r
    by_cases hr : r = p
    · subst hr
      rw [hg.minutes_ne _ w r hpq]
      exact hf.minutes b (g b) (fun w => hg.minutes_ne b w r hpq) (fun w => hg.levels_ne b w r hpq)
        (hg.connected b) w
    · rw [hf.minutes_ne _ w r hr]
      by_cases hq : r = q
      · subst hq
        exact (hg.minutes b (f b) (fun w => hf.minutes_ne b w r hr)
          (fun w => hf.levels_ne b w r hr) (hf.connected b) w).symm
      · rw [hg.minutes_ne _ w r hq, hg.minutes_ne _ w r hq, hf.minutes_ne _ w r hr]
  · funext w r
    by_cases hr : r = p
    · subst hr
      rw [hg.levels_ne _ w r hpq]
      exact hf.levels b (g b) (fun w => hg.levels_ne b w r hpq) w
    · rw [hf.levels_ne _ w r hr]
      by_cases hq : r = q
      · subst hq
        exact (hg.levels b (f b) (fun w => hf.levels_ne b w r hr) w).symm
      · rw [hg.levels_ne _ w r hq, hg.levels_ne _ w r hq, hf.levels_ne _ w r hr]
  · rw [hf.connected, hg.connected, hg.connected, hf.connected]
  · rw [hws, hws', hws', hws]
    tauto
  · exact hg.nodup _ (hf.nodup b h.nodup)
  · exact hf.nodup _ (hg.nodup b h.nodup)

end

/-! ### The changes a board gets -/

theorem step_column (worker : String) (platform : RowPlatform) (value : UsageValue) (level : ℚ)
    (atMs : ℚ) : Column (fun b => b.step worker platform value level atMs) platform := by
  refine ⟨fun b w p hp => ?_, fun _ _ _ _ => rfl, fun b b' hm _ _ w => ?_, fun _ _ hl => hl,
    fun _ => rfl, ⟨fun _ => False, fun _ _ _ => ?_⟩, fun _ h => h⟩
  · exact if_neg fun h => hp h.2
  · simp only [step, atKey, hm]
  · simp [step, atKey]

theorem levelOf_congr {b b' : Board} {w : String} {platform : RowPlatform}
    (h : b'.levels w platform = b.levels w platform) (value : UsageValue) :
    b'.levelOf w platform value = b.levelOf w platform value := by rw [levelOf, levelOf, h]

theorem fleetTotal_column (platform : RowPlatform) (value : UsageValue) (atMs : ℚ) :
    Column (fun b => b.fleetTotal platform value atMs) platform := by
  refine ⟨fun b w p hp => ?_, fun _ _ _ _ => rfl, fun b b' hm hl hc w => ?_, fun _ _ hl => hl,
    fun _ => rfl, ⟨fun _ => False, fun _ _ _ => ?_⟩, fun _ h => h⟩
  · exact if_neg fun h => hp h.2
  · have hsum : (b'.connected.map (fun w => b'.levelOf w platform value)).sum =
        (b.connected.map (fun w => b.levelOf w platform value)).sum := by
      rw [hc]
      congr 1
      exact List.map_congr_left fun w _ => levelOf_congr (hl w) value
    simp only [fleetTotal, step, atKey, hm, hsum]
  · simp [fleetTotal, step, atKey]

theorem setLevel_column (worker : String) (platform : RowPlatform) (value : UsageValue)
    (level : ℚ) : Column (fun b => b.setLevel worker platform value level) platform := by
  refine ⟨fun _ _ _ _ => rfl, fun b w p hp => ?_, fun _ _ hm _ _ => hm, fun b b' hl w => ?_,
    fun _ => rfl, ⟨fun w => w = worker, fun b w p => ?_⟩, fun b hb w => ?_⟩
  · exact if_neg fun h => hp h.2
  · simp only [setLevel, hl]
  · simp only [setLevel]
    split
    · rename_i h
      simp [h.1]
    · rename_i h
      constructor
      · exact .inl
      · rintro (hin | ⟨rfl, rfl⟩)
        · exact hin
        · by_contra hnot
          exact h ⟨rfl, hnot⟩
  · simp only [setLevel]
    split
    · rename_i h
      refine List.nodup_append.mpr ⟨hb w, List.nodup_singleton _, fun x hx y hy => ?_⟩
      rw [List.mem_singleton.mp hy]
      rintro rfl
      exact h.2 hx
    · exact hb w

theorem level_column (fleet : Bool) (origin : Origin) (platform : RowPlatform) (value : UsageValue)
    (level : ℚ) (atMs : ℚ) :
    Column (fun b => b.level fleet origin platform value level atMs) platform := by
  have hown := step_column origin.worker platform value level atMs
  unfold Board.level
  dsimp only
  split
  · exact hown
  · split
    · split
      · exact hown.comp (step_column "*" platform value level atMs)
      · exact hown
    · split
      · exact hown
      · exact (hown.comp (setLevel_column origin.worker platform value level)).comp
          (fleetTotal_column platform value atMs)

theorem Same.level {b b' : Board} (h : Same b b') (fleet : Bool) (origin : Origin)
    (platform : RowPlatform) (value : UsageValue) (level : ℚ) (atMs : ℚ) :
    Same (b.level fleet origin platform value level atMs)
      (b'.level fleet origin platform value level atMs) :=
  (level_column fleet origin platform value level atMs).same h

/-- The counts of one list are published alike, whatever order their platforms are taken in. -/
theorem Same.publishCounts {b b' : Board} (h : Same b b') (fleet : Bool)
    {counts counts' : Tally (Option Platform)} {l : List (Option Platform)}
    (hcounts : counts.Counts l) (hcounts' : counts'.Counts l) (value : UsageValue) (origin : Origin)
    (atMs : ℚ) {platforms platforms' : List (Option Platform)} (hperm : platforms.Perm platforms') :
    Same (b.publishCounts fleet counts value origin atMs platforms)
      (b'.publishCounts fleet counts' value origin atMs platforms') := by
  have hone : ∀ b p, Board.publishOne b fleet counts' value origin atMs p =
      b.publishOne fleet counts value origin atMs p := by
    intro b p
    unfold publishOne
    rw [hcounts'.get, ← hcounts.get]
  unfold Board.publishCounts
  rw [hcounts'.total, ← hcounts.total]
  refine Same.level ?_ fleet origin .all value _ atMs
  simp only [hone]
  refine Tally.foldl_perm (R := Same) (fun _ _ h => h.right) (fun _ _ _ h k => h.trans k) ?_ ?_ hperm
    b b' h
  · intro s s' p hs
    cases p with
    | none => exact hs
    | some p => exact hs.level fleet origin _ value _ atMs
  · intro s s' p q hs
    cases p with
    | none =>
      cases q with
      | none => exact hs
      | some q => exact hs.level fleet origin _ value _ atMs
    | some p =>
      cases q with
      | none => exact hs.level fleet origin _ value _ atMs
      | some q =>
        by_cases hpq : p = q
        · subst hpq
          exact (hs.level fleet origin _ value _ atMs).level fleet origin _ value _ atMs
        · exact (level_column fleet origin (.on p) value _ atMs).swap
            (level_column fleet origin (.on q) value _ atMs) (by simpa using hpq) hs

theorem dropPlatform_column (gone : RowPlatform → List (UsageValue × ℚ)) (atMs : ℚ)
    (platform : RowPlatform) : Column (fun b => b.dropPlatform gone atMs platform) platform := by
  unfold dropPlatform
  induction gone platform with
  | nil => exact .id platform
  | cons e rest ih => exact (fleetTotal_column platform e.1 atMs).comp ih

theorem Same.drop {b b' : Board} (h : Same b b') (worker : String) (atMs : ℚ) :
    Same (b.drop worker atMs) (b'.drop worker atMs) := by
  unfold Board.drop
  rw [h.levels]
  refine Tally.foldl_perm (R := Same) (fun _ _ h => h.right) (fun _ _ _ h k => h.trans k)
    (fun s s' p hs => (dropPlatform_column _ atMs p).same hs) ?_ (h.perm worker) _ _ ?_
  · intro s s' p q hs
    by_cases hpq : p = q
    · subst hpq
      exact (dropPlatform_column _ atMs p).same ((dropPlatform_column _ atMs p).same hs)
    · exact (dropPlatform_column _ atMs p).swap (dropPlatform_column _ atMs q) hpq hs
  · refine ⟨h.minutes, rfl, by rw [h.connected], fun w p => ?_, fun w => ?_, fun w => ?_⟩
    · dsimp only
      split
      · exact Iff.rfl
      · exact h.platforms w p
    · dsimp only
      split
      · exact List.nodup_nil
      · exact h.nodup w
    · dsimp only
      split
      · exact List.nodup_nil
      · exact h.nodup' w

theorem Same.cut {b b' : Board} (h : Same b b') (worker : Option String) (atMs : ℚ) :
    Same (b.cut worker atMs) (b'.cut worker atMs) :=
  ⟨by simp only [Board.cut, h.minutes], h.levels, h.connected, h.platforms, h.nodup, h.nodup'⟩

theorem Same.closeOpenRows {b b' : Board} (h : Same b b') :
    Same b.closeOpenRows b'.closeOpenRows :=
  ⟨by simp only [Board.closeOpenRows, h.minutes], h.levels, h.connected, h.platforms, h.nodup,
    h.nodup'⟩

theorem Same.connect {b b' : Board} (h : Same b b') (worker : String) :
    Same { b with connected := b.connected ++ [worker] }
      { b' with connected := b'.connected ++ [worker] } :=
  ⟨h.minutes, h.levels, by rw [h.connected], h.platforms, h.nodup, h.nodup'⟩

/-- What a fresh process knows depends on the rows alone. -/
theorem same_newRun {b b' : Board} (h : ∀ w p, (b'.minutes w p).rows = (b.minutes w p).rows) :
    Same b.newRun b'.newRun := by
  refine ⟨?_, rfl, rfl, fun _ _ => Iff.rfl, fun _ => List.nodup_nil, fun _ => List.nodup_nil⟩
  funext w p
  simp only [newRun, KeyMinutes.forget, h w p]

/-! ### The minutes of the history -/

section
variable {b : Board} {minute atMs : ℚ}

theorem Since.step (h : Since minute b) (worker : String) (platform : RowPlatform)
    (value : UsageValue) (level : ℚ) (ht : minute ≤ minuteOf atMs) :
    Since minute (b.step worker platform value level atMs) := by
  intro w p
  simp only [Board.step, atKey]
  split
  · exact (h w p).step value level ht
  · exact h w p

theorem Since.level (h : Since minute b) (fleet : Bool) (origin : Origin) (platform : RowPlatform)
    (value : UsageValue) (level : ℚ) (ht : minute ≤ minuteOf atMs) :
    Since minute (b.level fleet origin platform value level atMs) := by
  have hown := h.step origin.worker platform value level ht
  unfold Board.level
  dsimp only
  split
  · exact hown
  · split
    · split
      · exact hown.step "*" platform value level ht
      · exact hown
    · split
      · exact hown
      · exact Since.step (b := Board.setLevel _ _ _ _ _) hown "*" platform value _ ht

theorem Since.publishCounts (h : Since minute b) (fleet : Bool) (counts : Tally (Option Platform))
    (value : UsageValue) (origin : Origin) (platforms : List (Option Platform))
    (ht : minute ≤ minuteOf atMs) :
    Since minute (b.publishCounts fleet counts value origin atMs platforms) := by
  refine Since.level ?_ fleet origin .all value _ ht
  induction platforms generalizing b with
  | nil => exact h
  | cons p platforms ih =>
    refine ih ?_
    cases p with
    | none => exact h
    | some p => exact h.level fleet origin _ value _ ht

theorem Since.drop (h : Since minute b) (worker : String) (ht : minute ≤ minuteOf atMs) :
    Since minute (b.drop worker atMs) := by
  have hone : ∀ (gone : List (UsageValue × ℚ)) (p : RowPlatform) (b : Board), Since minute b →
      Since minute (gone.foldl (fun b e => b.fleetTotal p e.1 atMs) b) := by
    intro gone p
    induction gone with
    | nil => exact fun b hb => hb
    | cons e gone ih => exact fun b hb => ih _ (hb.step "*" p e.1 _ ht)
  have hall : ∀ (platforms : List RowPlatform) (b' : Board), Since minute b' → Since minute
      (platforms.foldl (fun b' p => b'.dropPlatform (b.levels worker) atMs p) b') := by
    intro platforms
    induction platforms with
    | nil => exact fun b' hb' => hb'
    | cons p platforms ih => exact fun b' hb' => ih _ (hone _ p b' hb')
  exact hall _ _ h

theorem Since.cut (h : Since minute b) (worker : Option String) (ht : minute ≤ minuteOf atMs) :
    Since minute (b.cut worker atMs) := by
  intro w p
  simp only [Board.cut]
  split
  · exact (h w p).cut ht
  · exact h w p

theorem Since.closeOpenRows (h : Since minute b) : Since minute b.closeOpenRows :=
  fun w p => (h w p).closeOpenRows

end

end Board

end Simlock.History
