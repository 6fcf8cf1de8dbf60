import Simlock.WarmPool.Proposals

/-! The kinds a pass plans for: each once, configured kinds before learned ones.

    `mergeTargets` sums the targets of one spec and `plannedKinds` adds the learned kinds behind
    them, so a kind's entry is found by its spec, an entry that comes after a learned one is learned,
    and a learned entry has no configured count. -/

namespace Simlock.WarmPool
open Core

/-! ### Merging -/

theorem mergeInto_cases {α : Type} (same : α → Bool) (change : α → α) (fresh : α) (l : List α) :
    (∃ front entry back, l = front ++ entry :: back ∧ same entry = true ∧
      mergeInto same change fresh l = front ++ change entry :: back) ∨
    (∀ entry ∈ l, same entry = false) ∧ mergeInto same change fresh l = l ++ [fresh] := by
  induction l with
  | nil => exact .inr ⟨nofun, rfl⟩
  | cons head rest ih =>
    cases hsame : same head with
    | true => exact .inl ⟨[], head, rest, rfl, hsame, by simp [mergeInto, hsame]⟩
    | false =>
      have hstep : mergeInto same change fresh (head :: rest) =
          head :: mergeInto same change fresh rest := by simp [mergeInto, hsame]
      rcases ih with ⟨front, entry, back, rfl, hentry, hmerged⟩ | ⟨hnone, hmerged⟩
      · refine .inl ⟨head :: front, entry, back, rfl, hentry, ?_⟩
        rw [hstep, hmerged, List.cons_append]
      · refine .inr ⟨fun entry hmem => ?_, by rw [hstep, hmerged, List.cons_append]⟩
        rcases List.mem_cons.mp hmem with rfl | hrest
        · exact hsame
        · exact hnone entry hrest

/-- Specs stay distinct where an entry is found by its spec and keeps it. -/
theorem nodup_mergeInto {α : Type} (specOf : α → VirtualSpec) {spec : VirtualSpec}
    {change : α → α} {fresh : α} {l : List α} (hfresh : specOf fresh = spec)
    (hchange : ∀ entry, specOf (change entry) = specOf entry) (h : (l.map specOf).Nodup) :
    ((mergeInto (fun entry => sameSpec (specOf entry) spec) change fresh l).map specOf).Nodup := by
  rcases mergeInto_cases (fun entry => sameSpec (specOf entry) spec) change fresh l with
    ⟨front, entry, back, rfl, -, hmerged⟩ | ⟨hnone, hmerged⟩
  · rw [hmerged]
    simpa [hchange] using h
  · rw [hmerged, List.map_append]
    refine List.nodup_append.mpr ⟨h, by simp, ?_⟩
    rintro taken hold _ hnew rfl
    obtain ⟨entry, hmem, heq⟩ := List.mem_map.mp hold
    have hother := hnone entry hmem
    rw [heq, List.mem_singleton.mp hnew, hfresh] at hother
    simp [sameSpec] at hother

/-! ### A kind's configured count -/

/-- What the operator asks for of a kind: the counts of the targets that resolved to its spec. -/
def configuredCount (targets : List ResolvedTarget) (spec : VirtualSpec) : Nat :=
  ((targets.filter fun target => sameSpec target.spec spec).map (·.count)).sum

theorem configuredCount_concat (targets : List ResolvedTarget) (target : ResolvedTarget)
    (spec : VirtualSpec) : configuredCount (targets ++ [target]) spec =
      configuredCount targets spec + if target.spec = spec then target.count else 0 := by
  by_cases h : target.spec = spec <;> simp [configuredCount, sameSpec, h]

theorem configuredCount_split (front back : List ResolvedTarget) (target : ResolvedTarget)
    (spec : VirtualSpec) : configuredCount (front ++ target :: back) spec =
      configuredCount front spec + (if target.spec = spec then target.count else 0) +
        configuredCount back spec := by
  rw [List.append_cons]
  simp only [configuredCount, List.filter_append, List.map_append, List.sum_append]
  by_cases h : target.spec = spec <;> simp [sameSpec, h]

/-- Merging keeps every kind's count. -/
theorem configuredCount_mergeInto (targets : List ResolvedTarget) (target : ResolvedTarget)
    (spec : VirtualSpec) :
    configuredCount (mergeInto (fun entry => sameSpec entry.spec target.spec)
        (fun entry => { entry with count := entry.count + target.count }) target targets) spec =
      configuredCount (targets ++ [target]) spec := by
  rcases mergeInto_cases (fun entry => sameSpec entry.spec target.spec)
      (fun entry => { entry with count := entry.count + target.count }) target targets with
    ⟨front, entry, back, rfl, hsame, hmerged⟩ | ⟨-, hmerged⟩
  · have hspec : entry.spec = target.spec := sameSpec_iff.mp hsame
    rw [hmerged, configuredCount_concat, configuredCount_split, configuredCount_split]
    dsimp only
    rw [hspec]
    split <;> omega
  · rw [hmerged]

theorem configuredCount_mergeTargets (targets : List ResolvedTarget) (spec : VirtualSpec) :
    configuredCount (mergeTargets targets) spec = configuredCount targets spec := by
  induction targets using List.reverseRecOn with
  | nil => rfl
  | append_singleton front target ih =>
    have hfold : mergeTargets (front ++ [target]) =
        mergeInto (fun entry => sameSpec entry.spec target.spec)
          (fun entry => { entry with count := entry.count + target.count }) target
          (mergeTargets front) := by simp [mergeTargets]
    rw [hfold, configuredCount_mergeInto, configuredCount_concat, configuredCount_concat, ih]

theorem nodup_mergeTargets (targets : List ResolvedTarget) :
    ((mergeTargets targets).map (·.spec)).Nodup := by
  unfold mergeTargets
  refine List.foldlRecOn targets _
    (motive := fun merged : List ResolvedTarget => (merged.map ResolvedTarget.spec).Nodup)
    List.nodup_nil ?_
  intro merged h target _
  exact nodup_mergeInto ResolvedTarget.spec rfl (fun _ => rfl) h

/-! ### The order of the kinds -/

/-- Each kind once: the configured ones, with the operator's counts, then the learned ones. -/
structure KindsOrdered (targets : List ResolvedTarget) (kinds : List PlannedKind) : Prop where
  nodup : (kinds.map (·.spec)).Nodup
  parts : ∃ configured learned, kinds = configured ++ learned ∧
    (∀ kind ∈ configured, kind.origin = .configured) ∧
    (∀ kind ∈ learned, kind.origin = .learned ∧ kind.configuredCount = 0) ∧
    configured.map (fun kind => (⟨kind.spec, kind.configuredCount⟩ : ResolvedTarget)) =
      mergeTargets targets

theorem plannedKinds_ordered (targets : List ResolvedTarget) (learned : List LearnedKind) :
    KindsOrdered targets (plannedKinds (mergeTargets targets) learned) := by
  refine List.foldlRecOn learned _ (motive := KindsOrdered targets) ?_ ?_
  · refine ⟨?_, _, [], (List.append_nil _).symm, fun kind h => ?_, nofun, ?_⟩
    · simpa [Function.comp_def] using nodup_mergeTargets targets
    · obtain ⟨target, -, rfl⟩ := List.mem_map.mp h
      rfl
    · simp [Function.comp_def]
  · intro kinds h kind _
    refine ⟨nodup_mergeInto PlannedKind.spec rfl (by exact fun _ => rfl) h.nodup, ?_⟩
    obtain ⟨configured, rest, rfl, hconfigured, hrest, hmap⟩ := h.parts
    rcases mergeInto_cases (fun entry : PlannedKind => sameSpec entry.spec kind.spec)
        (fun entry => { entry with learnedCount := kind.count })
        ⟨kind.spec, 0, kind.count, .learned⟩ (configured ++ rest) with
      ⟨front, entry, back, hlist, -, hmerged⟩ | ⟨-, hmerged⟩
    · rw [hmerged]
      rcases List.append_eq_append_iff.mp hlist with ⟨middle, rfl, rfl⟩ | ⟨middle, rfl, hback⟩
      · refine ⟨configured, middle ++ { entry with learnedCount := kind.count } :: back,
          by simp, hconfigured, fun other hmem => ?_, hmap⟩
        have hentry := hrest entry (by simp)
        simp only [List.mem_append, List.mem_cons] at hmem
        rcases hmem with hmiddle | rfl | hlater
        · exact hrest other (by simp [hmiddle])
        · exact hentry
        · exact hrest other (by simp [hlater])
      · cases middle with
        | nil =>
          rw [List.append_nil] at hconfigured hmap
          rw [List.nil_append] at hback
          subst hback
          refine ⟨front, { entry with learnedCount := kind.count } :: back, rfl, hconfigured,
            fun other hmem => ?_, hmap⟩
          have hentry := hrest entry (.head _)
          rcases List.mem_cons.mp hmem with rfl | hlater
          · exact hentry
          · exact hrest other (.tail _ hlater)
        | cons first middle =>
          cases hback
          refine ⟨front ++ { entry with learnedCount := kind.count } :: middle, rest, by simp,
            fun other hmem => ?_, hrest, by simpa using hmap⟩
          have hentry := hconfigured entry (by simp)
          simp only [List.mem_append, List.mem_cons] at hmem
          rcases hmem with hfront | rfl | hmiddle
          · exact hconfigured other (by simp [hfront])
          · exact hentry
          · exact hconfigured other (by simp [hmiddle])
    · rw [hmerged]
      refine ⟨configured, rest ++ [⟨kind.spec, 0, kind.count, .learned⟩], by simp, hconfigured,
        fun other hmem => ?_, hmap⟩
      rcases List.mem_append.mp hmem with hin | hnew
      · exact hrest other hin
      · rw [List.mem_singleton.mp hnew]
        exact ⟨rfl, rfl⟩

theorem planning_ordered (view : WarmPolicyView) :
    KindsOrdered view.targets (planning view).kinds := plannedKinds_ordered _ _

/-! ### A kind's entry -/

section
variable {targets : List ResolvedTarget} {p : Planning}

theorem eq_of_spec (h : KindsOrdered targets p.kinds) {a b : PlannedKind} (ha : a ∈ p.kinds)
    (hb : b ∈ p.kinds) (hspec : a.spec = b.spec) : a = b :=
  List.inj_on_of_nodup_map h.nodup ha hb hspec

theorem mem_of_kindEntry {spec : VirtualSpec} {kind : PlannedKind}
    (h : kindEntry p spec = some kind) : kind ∈ p.kinds ∧ kind.spec = spec := by
  have htest := List.find?_some h
  exact ⟨List.mem_of_find?_eq_some h, by simpa using htest⟩

theorem getElem?_kindIndex {spec : VirtualSpec} (h : kindIndex p spec < p.kinds.length) :
    ∃ kind, p.kinds[kindIndex p spec]? = some kind ∧ kind.spec = spec := by
  refine ⟨p.kinds[kindIndex p spec], List.getElem?_eq_getElem h, ?_⟩
  have htest : sameSpec (p.kinds[kindIndex p spec]).spec spec = true :=
    List.findIdx_getElem (w := h)
  exact sameSpec_iff.mp htest

theorem kindIndex_lt {kind : PlannedKind} (h : kind ∈ p.kinds) :
    kindIndex p kind.spec < p.kinds.length :=
  List.findIdx_lt_length_of_exists ⟨kind, h, by simp⟩

theorem configuredCount_eq_zero {merged : List ResolvedTarget} {spec : VirtualSpec}
    (h : spec ∉ merged.map (·.spec)) : configuredCount merged spec = 0 := by
  have hnone : merged.filter (fun target => sameSpec target.spec spec) = [] := by
    refine List.filter_eq_nil_iff.mpr fun target hmem hsame => h ?_
    exact List.mem_map.mpr ⟨target, hmem, sameSpec_iff.mp hsame⟩
  simp [configuredCount, hnone]

/-- Where each spec is once, its count is its only target's. -/
theorem configuredCount_nodup {merged : List ResolvedTarget} (h : (merged.map (·.spec)).Nodup)
    {target : ResolvedTarget} (hmem : target ∈ merged) :
    configuredCount merged target.spec = target.count := by
  obtain ⟨front, back, rfl⟩ := List.append_of_mem hmem
  rw [List.map_append, List.map_cons] at h
  have hparts := List.nodup_append.mp h
  have hback := (List.nodup_cons.mp hparts.2.1).1
  have hfront : target.spec ∉ front.map (·.spec) := fun hin =>
    hparts.2.2 _ hin _ (.head _) rfl
  rw [configuredCount_split, configuredCount_eq_zero hfront, configuredCount_eq_zero hback]
  simp

/-- A kind planned for has the configured count its targets ask for. -/
theorem configuredCount_of_mem (h : KindsOrdered targets p.kinds) {kind : PlannedKind}
    (hmem : kind ∈ p.kinds) : kind.configuredCount = configuredCount targets kind.spec := by
  obtain ⟨configured, learned, hkinds, -, hlearned, hmap⟩ := h.parts
  have hnodup := h.nodup
  rw [hkinds, List.map_append] at hnodup
  have hspecs : configured.map (·.spec) = (mergeTargets targets).map (·.spec) := by
    simp [← hmap, Function.comp_def]
  rw [← configuredCount_mergeTargets]
  rw [hkinds] at hmem
  rcases List.mem_append.mp hmem with hin | hin
  · have htarget : (⟨kind.spec, kind.configuredCount⟩ : ResolvedTarget) ∈ mergeTargets targets := by
      rw [← hmap]
      exact List.mem_map_of_mem hin
    exact (configuredCount_nodup (nodup_mergeTargets targets) htarget).symm
  · rw [(hlearned kind hin).2, configuredCount_eq_zero]
    rw [← hspecs]
    intro hspec
    exact (List.nodup_append.mp hnodup).2.2 _ hspec _ (List.mem_map_of_mem hin) rfl

/-- A spec that no kind has asks for none. -/
theorem configuredCount_of_not_mem (h : KindsOrdered targets p.kinds) {spec : VirtualSpec}
    (hnot : ∀ kind ∈ p.kinds, kind.spec ≠ spec) : configuredCount targets spec = 0 := by
  obtain ⟨configured, learned, hkinds, -, -, hmap⟩ := h.parts
  rw [← configuredCount_mergeTargets, configuredCount_eq_zero]
  intro hspec
  rw [← hmap, List.map_map] at hspec
  obtain ⟨kind, hin, heq⟩ := List.mem_map.mp hspec
  exact hnot kind (hkinds ▸ List.mem_append_left _ hin) heq

theorem configuredCount_kindEntry (h : KindsOrdered targets p.kinds) (spec : VirtualSpec) :
    ((kindEntry p spec).map (·.configuredCount)).getD 0 = configuredCount targets spec := by
  cases hentry : kindEntry p spec with
  | some kind =>
    obtain ⟨hmem, rfl⟩ := mem_of_kindEntry hentry
    exact configuredCount_of_mem h hmem
  | none =>
    refine (configuredCount_of_not_mem h fun kind hmem hspec => ?_).symm
    have hnone := List.find?_eq_none.mp hentry kind hmem
    exact hnone (by simp [hspec])

/-- `later` is the spec of a learned kind that comes after the learned kind of `spec`. -/
def LearnedAfter (p : Planning) (spec later : VirtualSpec) : Prop :=
  ∃ (i j : Nat) (kind other : PlannedKind), i < j ∧ p.kinds[i]? = some kind ∧
    p.kinds[j]? = some other ∧ kind.spec = spec ∧ other.spec = later ∧
    kind.origin = .learned ∧ other.origin = .learned

/-- What comes after a learned kind is learned. -/
theorem learned_after (h : KindsOrdered targets p.kinds) {i j : Nat} {kind other : PlannedKind}
    (hi : p.kinds[i]? = some kind) (hj : p.kinds[j]? = some other) (hij : i < j)
    (hkind : kind.origin = .learned) : other.origin = .learned := by
  obtain ⟨configured, learned, hkinds, hconfigured, hlearned, -⟩ := h.parts
  rw [hkinds] at hi hj
  by_cases hplace : i < configured.length
  · rw [List.getElem?_append_left hplace] at hi
    have horigin := hconfigured kind (List.mem_of_getElem? hi)
    rw [hkind] at horigin
    cases horigin
  · rw [List.getElem?_append_right (by omega)] at hj
    exact (hlearned other (List.mem_of_getElem? hj)).1

theorem learnedAfter_of_victim (h : KindsOrdered targets p.kinds) {plan : TargetPlan}
    {spec : VirtualSpec} {victim : VirtualDevice}
    (hvictim : learnedVictim p plan spec = some victim) : LearnedAfter p spec victim.spec := by
  unfold learnedVictim at hvictim
  split at hvictim
  · cases hvictim
  · rename_i horigin
    simp only [ne_eq, not_not] at horigin
    obtain ⟨kind, hentry, hkind⟩ := Option.map_eq_some_iff.mp horigin
    obtain ⟨hmem, rfl⟩ := mem_of_kindEntry hentry
    have hplace := List.find?_some hvictim
    simp only [Bool.and_eq_true, decide_eq_true_eq] at hplace
    have hlt := kindIndex_lt hmem
    obtain ⟨found, hfound, hspec⟩ := getElem?_kindIndex hlt
    cases eq_of_spec h (List.mem_of_getElem? hfound) hmem hspec
    have hafter : kindIndex p kind.spec < kindIndex p victim.spec ∧
        kindIndex p victim.spec < p.kinds.length := by
      have hordered := hplace.1
      simp only [kindPlace, if_pos hlt] at hordered
      split at hordered <;> omega
    obtain ⟨other, hother, hvictimSpec⟩ := getElem?_kindIndex hafter.2
    exact ⟨_, _, kind, other, hafter.1, hfound, hother, rfl, hvictimSpec, hkind,
      learned_after h hfound hother hafter.1 hkind⟩

/-- A learned kind that comes after another has no configured count. -/
theorem LearnedAfter.configuredCount (h : KindsOrdered targets p.kinds) {spec later : VirtualSpec}
    (hafter : LearnedAfter p spec later) : WarmPool.configuredCount targets later = 0 := by
  obtain ⟨i, j, kind, other, hij, hi, hj, rfl, rfl, hkind, hother⟩ := hafter
  have hmem := List.mem_of_getElem? hj
  rw [← configuredCount_of_mem h hmem]
  obtain ⟨configured, learned, hkinds, hconfigured, hlearned, -⟩ := h.parts
  rw [hkinds] at hmem
  rcases List.mem_append.mp hmem with hin | hin
  · have horigin := hconfigured other hin
    rw [hother] at horigin
    cases horigin
  · exact (hlearned other hin).2

end

end Simlock.WarmPool
