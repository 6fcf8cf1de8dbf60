import Mathlib.Algebra.Ring.Nat
import Mathlib.Algebra.BigOperators.Group.List.Lemmas
import Mathlib.Data.List.Dedup

/-! A tally: how often each key occurs, kept as a map in the order the keys came.

    A tally is only a shadow of a list, its multiset of keys: `Counts t l` says that `t` gives every
    key the number of times `l` holds it. Two tallies of one list agree on every count and on the
    total, whatever order their keys came in. They need not hold the same keys: a key that fell to
    zero stays in a tally that was counted down, and is absent from one made from the list. -/

namespace Simlock.Lib

structure Tally (κ : Type) where
  entries : List (κ × Nat)
  deriving DecidableEq, Repr

namespace Tally

variable {κ : Type} [DecidableEq κ]

def empty : Tally κ := ⟨[]⟩

def keys (t : Tally κ) : List κ := t.entries.map Prod.fst

def get (t : Tally κ) (k : κ) : Nat := ((t.entries.find? (fun e => e.1 = k)).map Prod.snd).getD 0

/-- A key that is there keeps its place, a new one comes last. -/
def set (t : Tally κ) (k : κ) (n : Nat) : Tally κ :=
  if k ∈ t.keys then ⟨t.entries.map (fun e => if e.1 = k then (k, n) else e)⟩
  else ⟨t.entries ++ [(k, n)]⟩

def total (t : Tally κ) : Nat := (t.entries.map Prod.snd).sum

/-- How often a list holds a key. -/
def occurs (l : List κ) (k : κ) : Nat := l.countP (fun x => x = k)

/-- The tally made from a list at once. -/
def of (l : List κ) : Tally κ := ⟨l.dedup.map (fun k => (k, occurs l k))⟩

/-- `t` counts the keys of `l`. -/
structure Counts (t : Tally κ) (l : List κ) : Prop where
  nodup : t.keys.Nodup
  get : ∀ k, t.get k = occurs l k

@[simp] theorem occurs_nil (k : κ) : occurs [] k = 0 := rfl

@[simp] theorem occurs_append (l l' : List κ) (k : κ) :
    occurs (l ++ l') k = occurs l k + occurs l' k := List.countP_append

@[simp] theorem occurs_cons (a : κ) (l : List κ) (k : κ) :
    occurs (a :: l) k = occurs l k + if a = k then 1 else 0 := by
  simp [occurs, List.countP_cons]

theorem occurs_eq_zero {l : List κ} {k : κ} : occurs l k = 0 ↔ k ∉ l := by
  simp only [occurs, List.countP_eq_zero, decide_eq_true_eq]
  exact ⟨fun h hk => h k hk rfl, fun h x hx hxk => h (hxk ▸ hx)⟩

theorem occurs_eq_one {l : List κ} (h : l.Nodup) {k : κ} (hk : k ∈ l) : occurs l k = 1 := by
  induction l with
  | nil => cases hk
  | cons a l ih =>
    rw [List.nodup_cons] at h
    rw [occurs_cons]
    by_cases ha : a = k
    · subst ha
      rw [occurs_eq_zero.mpr h.1, if_pos rfl]
    · rw [ih h.2 ((List.mem_cons.mp hk).resolve_left (Ne.symm ha)), if_neg ha]

@[simp] theorem keys_of (l : List κ) : (of l).keys = l.dedup := by
  simp only [keys, of, List.map_map]
  exact List.map_id _

theorem get_of_mem {t : Tally κ} (h : t.keys.Nodup) {k : κ} {n : Nat} (hmem : (k, n) ∈ t.entries) :
    t.get k = n := by
  obtain ⟨entries⟩ := t
  simp only [Tally.get, keys] at *
  induction entries with
  | nil => cases hmem
  | cons e entries ih =>
    rw [List.map_cons, List.nodup_cons] at h
    rcases List.mem_cons.mp hmem with rfl | htail
    · simp
    · have hne : e.1 ≠ k := by
        rintro rfl
        exact h.1 (List.mem_map.mpr ⟨_, htail, rfl⟩)
      rw [List.find?_cons_of_neg (by simpa using hne)]
      exact ih h.2 htail

theorem get_of_not_mem {t : Tally κ} {k : κ} (h : k ∉ t.keys) : t.get k = 0 := by
  have hnone : t.entries.find? (fun e => e.1 = k) = none := by
    rw [List.find?_eq_none]
    intro e he heq
    exact h (List.mem_map.mpr ⟨e, he, by simpa using heq⟩)
  rw [Tally.get, hnone]
  rfl

theorem counts_of (l : List κ) : Counts (of l) l := by
  have hnodup : (of l).keys.Nodup := by
    rw [keys_of]
    exact List.nodup_dedup l
  refine ⟨hnodup, fun k => ?_⟩
  by_cases hk : k ∈ l
  · exact get_of_mem hnodup (List.mem_map.mpr ⟨k, List.mem_dedup.mpr hk, rfl⟩)
  · rw [get_of_not_mem (by rw [keys_of, List.mem_dedup]; exact hk), occurs_eq_zero.mpr hk]

theorem Counts.congr {t : Tally κ} {l l' : List κ} (h : Counts t l)
    (hl : ∀ k, occurs l' k = occurs l k) : Counts t l' :=
  ⟨h.nodup, fun k => (h.get k).trans (hl k).symm⟩

/-! ### Setting one count -/

theorem keys_set (t : Tally κ) (k : κ) (n : Nat) :
    (t.set k n).keys = if k ∈ t.keys then t.keys else t.keys ++ [k] := by
  unfold set
  split
  · simp only [keys, List.map_map]
    refine List.map_congr_left fun e _ => ?_
    by_cases he : e.1 = k <;> simp [he]
  · simp [keys]

theorem nodup_keys_set {t : Tally κ} (h : t.keys.Nodup) (k : κ) (n : Nat) :
    (t.set k n).keys.Nodup := by
  rw [keys_set]
  split
  · exact h
  · rename_i hk
    refine List.nodup_append.mpr ⟨h, List.nodup_singleton k, fun a ha b hb => ?_⟩
    rw [List.mem_singleton.mp hb]
    rintro rfl
    exact hk ha

theorem get_set_self {t : Tally κ} (h : t.keys.Nodup) (k : κ) (n : Nat) : (t.set k n).get k = n := by
  refine get_of_mem (nodup_keys_set h k n) ?_
  unfold set
  split
  · rename_i hk
    obtain ⟨e, he, heq⟩ := List.mem_map.mp hk
    exact List.mem_map.mpr ⟨e, he, by simp [heq]⟩
  · exact List.mem_append_right _ (List.mem_singleton_self _)

theorem get_set_of_ne {t : Tally κ} (h : t.keys.Nodup) {k k' : κ} (hne : k' ≠ k) (n : Nat) :
    (t.set k n).get k' = t.get k' := by
  have hkeys : k' ∈ (t.set k n).keys ↔ k' ∈ t.keys := by
    rw [keys_set]
    split
    · exact Iff.rfl
    · simp [hne]
  by_cases hk' : k' ∈ t.keys
  · obtain ⟨⟨_, m⟩, he, rfl⟩ := List.mem_map.mp hk'
    rw [get_of_mem h he]
    refine get_of_mem (nodup_keys_set h k n) ?_
    unfold set
    split
    · exact List.mem_map.mpr ⟨_, he, by simp [hne]⟩
    · exact List.mem_append_left _ he
  · rw [get_of_not_mem hk', get_of_not_mem (fun hin => hk' (hkeys.mp hin))]

/-- The count of one key changes with the list. -/
theorem Counts.set {t : Tally κ} {l l' : List κ} (h : Counts t l) {k : κ} {n : Nat}
    (hk : occurs l' k = n) (hne : ∀ k', k' ≠ k → occurs l' k' = occurs l k') :
    Counts (t.set k n) l' := by
  refine ⟨nodup_keys_set h.nodup k n, fun k' => ?_⟩
  by_cases hkk : k' = k
  · subst hkk
    rw [get_set_self h.nodup, hk]
  · rw [get_set_of_ne h.nodup hkk, h.get, hne k' hkk]

/-! ### The total -/

theorem Counts.mem_keys {t : Tally κ} {l : List κ} (h : Counts t l) {k : κ} (hk : k ∈ l) :
    k ∈ t.keys := by
  by_contra hnot
  have hzero := h.get k
  rw [get_of_not_mem hnot] at hzero
  exact occurs_eq_zero.mp hzero.symm hk

theorem sum_ite_eq_occurs (a : κ) (keys : List κ) :
    (keys.map (fun k => if a = k then 1 else 0)).sum = occurs keys a := by
  induction keys with
  | nil => rfl
  | cons k keys ih =>
    rw [List.map_cons, List.sum_cons, ih, occurs_cons, Nat.add_comm]
    simp only [eq_comm]

/-- Over keys without repetition that hold all of a list, the counts add up to its length. -/
theorem sum_occurs {keys : List κ} (hnodup : keys.Nodup) :
    ∀ {l : List κ}, (∀ k ∈ l, k ∈ keys) → (keys.map (occurs l)).sum = l.length
  | [], _ => by
    induction keys with
    | nil => rfl
    | cons k keys ih => simpa using ih (List.nodup_cons.mp hnodup).2
  | a :: l, h => by
    have ha : a ∈ keys := h a List.mem_cons_self
    have ih := sum_occurs hnodup (l := l) (fun k hk => h k (List.mem_cons_of_mem a hk))
    have hone : (keys.map (fun k => if a = k then 1 else 0)).sum = 1 := by
      rw [sum_ite_eq_occurs, occurs_eq_one hnodup ha]
    have hsplit : keys.map (occurs (a :: l)) =
        keys.map (fun k => occurs l k + if a = k then 1 else 0) :=
      List.map_congr_left fun k _ => occurs_cons a l k
    rw [hsplit, List.sum_map_add, ih, hone, List.length_cons]

theorem Counts.total {t : Tally κ} {l : List κ} (h : Counts t l) : t.total = l.length := by
  have hvals : t.entries.map Prod.snd = t.keys.map (occurs l) := by
    simp only [keys, List.map_map]
    refine List.map_congr_left fun e he => ?_
    rw [Function.comp_apply, ← h.get]
    exact (get_of_mem h.nodup he).symm
  rw [Tally.total, hvals]
  exact sum_occurs h.nodup fun k hk => h.mem_keys hk

/-! ### Two tallies of one list -/

/-- The two hold the same keys. -/
def SameKeys (t t' : Tally κ) : Prop := ∀ k, k ∈ t.keys ↔ k ∈ t'.keys

theorem SameKeys.perm {t t' : Tally κ} {l : List κ} (h : SameKeys t t') (ht : Counts t l)
    (ht' : Counts t' l) : t.keys.Perm t'.keys := (List.perm_ext_iff_of_nodup ht.nodup ht'.nodup).mpr h

instance (t t' : Tally κ) : Decidable (SameKeys t t') :=
  decidable_of_iff ((∀ k ∈ t.keys, k ∈ t'.keys) ∧ ∀ k ∈ t'.keys, k ∈ t.keys)
    ⟨fun h k => ⟨h.1 k, h.2 k⟩, fun h => ⟨fun k => (h k).mp, fun k => (h k).mpr⟩⟩

/-! ### Visiting keys in another order -/

omit [DecidableEq κ] in
/-- Visits that can be exchanged, up to a relation they keep, end in related states. -/
theorem foldl_perm {σ : Type} {f : σ → κ → σ} {R : σ → σ → Prop}
    (hrefl : ∀ s s', R s s' → R s' s') (htrans : ∀ s s' s'', R s s' → R s' s'' → R s s'')
    (hstep : ∀ s s' k, R s s' → R (f s k) (f s' k))
    (hswap : ∀ s s' k k', R s s' → R (f (f s k) k') (f (f s' k') k)) {l l' : List κ}
    (h : l.Perm l') : ∀ s s', R s s' → R (l.foldl f s) (l'.foldl f s') := by
  induction h with
  | nil => exact fun _ _ hR => hR
  | cons k _ ih => exact fun s s' hR => ih _ _ (hstep s s' k hR)
  | swap k k' l =>
    intro s s' hR
    have hfold : ∀ (l : List κ) (s s' : σ), R s s' → R (l.foldl f s) (l.foldl f s') := by
      intro l
      induction l with
      | nil => exact fun _ _ h => h
      | cons k l ih => exact fun s s' h => ih _ _ (hstep s s' k h)
    exact hfold l _ _ (hswap s s' k' k hR)
  | trans _ _ ih ih' => exact fun s s' hR => htrans _ _ _ (ih s s' hR) (ih' s' s' (hrefl s s' hR))

end Tally

end Simlock.Lib
