import Mathlib.Data.List.Basic
import Mathlib.Data.List.Nodup

/-! Keyed tables and lists of immutable records that are stored by their difference.

    A table is the list of its rows in insertion order: an upsert of a key that is there keeps its
    place, a new key goes to the end. A list to store holds, for every entry, whether it is the
    stored record itself or a new one, and a writer that stores only the difference deletes the
    keys that are gone and upserts the new records.

    `Follows` says which lists such a writer stores rightly: entries may go, be replaced in place,
    and new keys come last. Then deleting and upserting leaves exactly the list. -/

namespace Simlock.Lib

section Objects

variable {α : Type}

/-- An entry of a list to store: the stored record, or one made for this list. -/
structure Obj (α : Type) where
  val : α
  fresh : Bool

def keep (xs : List α) : List (Obj α) := xs.map (fun x => ⟨x, false⟩)

def vals (xs : List (Obj α)) : List α := xs.map Obj.val

/-- The list with the first entry that meets `p` replaced by the new record `x`. -/
def replaceFirst (p : α → Bool) (x : α) : List (Obj α) → List (Obj α)
  | [] => []
  | o :: os => if p o.val then ⟨x, true⟩ :: os else o :: replaceFirst p x os

@[simp] theorem vals_keep (xs : List α) : vals (keep xs) = xs := by
  induction xs with
  | nil => rfl
  | cons x xs ih => simpa [vals, keep] using ih

@[simp] theorem vals_append (xs ys : List (Obj α)) : vals (xs ++ ys) = vals xs ++ vals ys := by
  simp [vals]

theorem mem_keep {xs : List α} {o : Obj α} (h : o ∈ keep xs) : o.fresh = false ∧ o.val ∈ xs := by
  obtain ⟨x, hx, rfl⟩ := List.mem_map.mp h
  exact ⟨rfl, hx⟩

theorem mem_replaceFirst {p : α → Bool} {x : α} {os : List (Obj α)} {o : Obj α}
    (h : o ∈ replaceFirst p x os) : o = ⟨x, true⟩ ∨ o ∈ os := by
  induction os with
  | nil => simp [replaceFirst] at h
  | cons o' os ih =>
    rw [replaceFirst] at h
    split at h
    · rcases List.mem_cons.mp h with h | h
      · exact .inl h
      · exact .inr (List.mem_cons_of_mem _ h)
    · rcases List.mem_cons.mp h with rfl | h
      · exact .inr List.mem_cons_self
      · exact (ih h).imp_right (List.mem_cons_of_mem _)

theorem mem_replaceFirst_of_not {p : α → Bool} {x : α} {os : List (Obj α)} {o : Obj α} (ho : o ∈ os)
    (hp : ¬ p o.val = true) : o ∈ replaceFirst p x os := by
  induction os with
  | nil => cases ho
  | cons o' os ih =>
    rw [replaceFirst]
    rcases List.mem_cons.mp ho with rfl | ho
    · rw [if_neg hp]
      exact List.mem_cons_self
    · split
      · exact List.mem_cons_of_mem _ ho
      · exact List.mem_cons_of_mem _ (ih ho)

theorem mem_replaceFirst_self {p : α → Bool} {x : α} {os : List (Obj α)}
    (h : ∃ o ∈ os, p o.val = true) : ⟨x, true⟩ ∈ replaceFirst p x os := by
  induction os with
  | nil =>
    obtain ⟨o, ho, -⟩ := h
    cases ho
  | cons o' os ih =>
    rw [replaceFirst]
    split
    · exact List.mem_cons_self
    · rename_i hp
      obtain ⟨o, ho, hpo⟩ := h
      rcases List.mem_cons.mp ho with rfl | ho
      · exact absurd hpo hp
      · exact List.mem_cons_of_mem _ (ih ⟨o, ho, hpo⟩)

/-- A replacement by a record of the same key leaves the keys as they were. -/
theorem map_replaceFirst {κ : Type} (key : α → κ) {p : α → Bool} {x : α} {os : List (Obj α)}
    (h : ∀ o ∈ os, p o.val → key o.val = key x) :
    (replaceFirst p x os).map (fun o => key o.val) = os.map (fun o => key o.val) := by
  induction os with
  | nil => rfl
  | cons o os ih =>
    rw [replaceFirst]
    split
    · rename_i hp
      simp [h o List.mem_cons_self hp]
    · simp [ih fun o ho => h o (List.mem_cons_of_mem _ ho)]

/-- A replacement under a key shows under that key and under no other. -/
theorem find_replaceFirst {κ : Type} [DecidableEq κ] (key : α → κ) (x : α) {os : List (Obj α)}
    (h : ∃ o ∈ os, key o.val = key x) (k : κ) :
    (vals (replaceFirst (fun y => key y = key x) x os)).find? (fun y => key y = k) =
      if k = key x then some x else (vals os).find? (fun y => key y = k) := by
  induction os with
  | nil =>
    obtain ⟨o, ho, -⟩ := h
    cases ho
  | cons o os ih =>
    by_cases ho : key o.val = key x
    · by_cases hk : key x = k
      · simp [replaceFirst, vals, ho, hk]
      · simp [replaceFirst, vals, ho, hk, Ne.symm hk]
    · have hrest : ∃ o ∈ os, key o.val = key x := by
        obtain ⟨y, hy, hkey⟩ := h
        rcases List.mem_cons.mp hy with rfl | hy
        · exact absurd hkey ho
        · exact ⟨y, hy, hkey⟩
      have hih := ih hrest
      simp only [vals] at hih
      by_cases hk : key o.val = k
      · subst hk
        simp [replaceFirst, vals, ho]
      · simp only [replaceFirst, ho, decide_false, vals, List.map_cons, List.find?_cons, hk,
          Bool.false_eq_true, if_false]
        exact hih

end Objects

section Tables

variable {α β κ : Type} [DecidableEq κ]

/-- Replaces the row of the key of `x`, or appends `x`. -/
def upsert (key : α → κ) (x : α) : List α → List α
  | [] => [x]
  | y :: ys => if key y = key x then x :: ys else y :: upsert key x ys

theorem upsert_of_not_mem (key : α → κ) (x : α) {l : List α} (h : key x ∉ l.map key) :
    upsert key x l = l ++ [x] := by
  induction l with
  | nil => rfl
  | cons y l ih =>
    simp only [List.map_cons, List.mem_cons, not_or] at h
    rw [upsert, if_neg (Ne.symm h.1), ih h.2]
    rfl

theorem length_upsert_of_mem {key : α → κ} {x : α} {l : List α} (h : key x ∈ l.map key) :
    (upsert key x l).length = l.length := by
  induction l with
  | nil => cases h
  | cons y l ih =>
    rw [upsert]
    split
    · rfl
    · rename_i hne
      rw [List.map_cons, List.mem_cons] at h
      rw [List.length_cons, List.length_cons, ih (h.resolve_left (Ne.symm hne))]

/-- Encoding rows commutes with an upsert when the encoded key tells the same rows apart. -/
theorem map_upsert {κ' : Type} [DecidableEq κ'] (key : α → κ) (key' : β → κ') (f : α → β) (x : α)
    (h : ∀ y, key' (f y) = key' (f x) ↔ key y = key x) (l : List α) :
    (upsert key x l).map f = upsert key' (f x) (l.map f) := by
  induction l with
  | nil => rfl
  | cons y l ih =>
    by_cases hk : key y = key x
    · simp [upsert, hk, (h y).mpr hk]
    · have hk' : ¬ key' (f y) = key' (f x) := fun e => hk ((h y).mp e)
      simp [upsert, hk, hk', ih]

/-- A row of the table after an upsert is the new one, or an old one of another key. -/
theorem mem_upsert {key : α → κ} {x y : α} {l : List α} (hl : (l.map key).Nodup)
    (h : y ∈ upsert key x l) : y = x ∨ (y ∈ l ∧ key y ≠ key x) := by
  induction l with
  | nil => exact .inl (List.mem_singleton.mp h)
  | cons z l ih =>
    rw [List.map_cons, List.nodup_cons] at hl
    rw [upsert] at h
    split at h
    · rename_i hz
      refine (List.mem_cons.mp h).imp_right fun hy => ⟨List.mem_cons_of_mem _ hy, fun hk => ?_⟩
      exact hl.1 (hz ▸ hk ▸ List.mem_map_of_mem hy)
    · rename_i hz
      rcases List.mem_cons.mp h with rfl | h
      · exact .inr ⟨List.mem_cons_self, hz⟩
      · exact (ih hl.2 h).imp_right fun h => ⟨List.mem_cons_of_mem _ h.1, h.2⟩

theorem mem_upsert_self (key : α → κ) (x : α) (l : List α) : x ∈ upsert key x l := by
  induction l with
  | nil => exact List.mem_singleton.mpr rfl
  | cons z l ih =>
    rw [upsert]
    split
    · exact List.mem_cons_self
    · exact List.mem_cons_of_mem _ ih

theorem mem_upsert_of_ne {key : α → κ} {x y : α} {l : List α} (hy : y ∈ l) (hk : key y ≠ key x) :
    y ∈ upsert key x l := by
  induction l with
  | nil => cases hy
  | cons z l ih =>
    rw [upsert]
    rcases List.mem_cons.mp hy with rfl | hy
    · rw [if_neg hk]
      exact List.mem_cons_self
    · split
      · exact List.mem_cons_of_mem _ hy
      · exact List.mem_cons_of_mem _ (ih hy)

/-- The keys of a table after an upsert are its keys and the row's. -/
theorem mem_keys_upsert {key : α → κ} {x : α} {l : List α} {k : κ} :
    k ∈ (upsert key x l).map key ↔ k = key x ∨ k ∈ l.map key := by
  induction l with
  | nil => simp [upsert]
  | cons z l ih =>
    rw [upsert]
    split
    · rename_i hz
      simp [hz]
    · rw [List.map_cons, List.mem_cons, ih, List.map_cons, List.mem_cons]
      tauto

theorem nodup_keys_upsert {key : α → κ} {l : List α} (x : α) (h : (l.map key).Nodup) :
    ((upsert key x l).map key).Nodup := by
  induction l with
  | nil => simp [upsert]
  | cons z l ih =>
    rw [List.map_cons, List.nodup_cons] at h
    rw [upsert]
    split
    · rename_i hz
      rw [List.map_cons, List.nodup_cons, ← hz]
      exact h
    · rename_i hz
      rw [List.map_cons, List.nodup_cons, mem_keys_upsert]
      refine ⟨?_, ih h.2⟩
      rintro (he | hm)
      · exact hz he
      · exact h.1 hm

theorem find_upsert_self (key : α → κ) (x : α) (l : List α) :
    (upsert key x l).find? (fun y => key y = key x) = some x := by
  induction l with
  | nil => simp [upsert]
  | cons z l ih =>
    rw [upsert]
    split
    · simp
    · rename_i hz
      simp [hz, ih]

theorem find_upsert_of_ne (key : α → κ) {x : α} {k : κ} (hk : key x ≠ k) (l : List α) :
    (upsert key x l).find? (fun y => key y = k) = l.find? (fun y => key y = k) := by
  induction l with
  | nil => simp [upsert, hk]
  | cons z l ih =>
    rw [upsert]
    split
    · rename_i hz
      have hz' : key z ≠ k := hz ▸ hk
      simp [hk, hz']
    · simp [List.find?_cons, ih]

theorem find_key_eq_some {key : α → κ} {l : List α} (h : (l.map key).Nodup) {x : α} (hx : x ∈ l) :
    l.find? (fun y => key y = key x) = some x := by
  obtain ⟨y, hy⟩ : ∃ y, l.find? (fun y => key y = key x) = some y := by
    rw [← Option.isSome_iff_exists, List.find?_isSome]
    exact ⟨x, hx, by simp⟩
  have hk : key y = key x := by simpa using List.find?_some hy
  rw [hy, List.inj_on_of_nodup_map h (List.mem_of_find?_eq_some hy) hx hk]

/-- The rows of the keys `ks` deleted. -/
def deleteKeys (key : α → κ) (ks : List κ) (l : List α) : List α := l.filter (fun x => key x ∉ ks)

@[simp] theorem deleteKeys_nil (key : α → κ) (l : List α) : deleteKeys key [] l = l := by
  simp [deleteKeys]

theorem deleteKeys_cons (key : α → κ) (k : κ) (ks : List κ) (l : List α) :
    deleteKeys key (k :: ks) l = deleteKeys key ks (l.filter (fun x => key x ≠ k)) := by
  simp only [deleteKeys, List.filter_filter, List.mem_cons, not_or]
  congr 1
  funext x
  simp [Bool.and_comm]

theorem foldl_filter_ne (key : α → κ) (ks : List κ) (l : List α) :
    ks.foldl (fun l k => l.filter (fun x => key x ≠ k)) l = deleteKeys key ks l := by
  induction ks generalizing l with
  | nil => simp
  | cons k ks ih => rw [List.foldl_cons, ih, deleteKeys_cons]

theorem mem_foldl_upsert {key : α → κ} {y : α} (xs l : List α) (hl : (l.map key).Nodup)
    (h : y ∈ xs.foldl (fun l x => upsert key x l) l) : y ∈ l ∨ y ∈ xs := by
  induction xs generalizing l with
  | nil => exact .inl h
  | cons x xs ih =>
    rcases ih (upsert key x l) (nodup_keys_upsert x hl) h with h | h
    · rcases mem_upsert hl h with rfl | ⟨h, -⟩
      · exact .inr List.mem_cons_self
      · exact .inl h
    · exact .inr (List.mem_cons_of_mem _ h)

theorem nodup_keys_foldl_upsert {key : α → κ} (xs l : List α) (hl : (l.map key).Nodup) :
    ((xs.foldl (fun l x => upsert key x l) l).map key).Nodup := by
  induction xs generalizing l with
  | nil => exact hl
  | cons x xs ih => exact ih (upsert key x l) (nodup_keys_upsert x hl)

theorem nodup_keys_deleteKeys {key : α → κ} (ks : List κ) {l : List α} (hl : (l.map key).Nodup) :
    ((deleteKeys key ks l).map key).Nodup := (List.filter_sublist.map key).nodup hl

/-! Child rows: those of one parent are rewritten by deleting them and inserting the new ones. -/

theorem filter_rewritten_self (parent : α → κ) {k : κ} {new : List α}
    (hnew : ∀ r ∈ new, parent r = k) (old : List α) :
    (old.filter (fun r => parent r ≠ k) ++ new).filter (fun r => parent r = k) = new := by
  rw [List.filter_append, List.filter_filter]
  have hold : old.filter (fun r => decide (parent r = k) && decide (parent r ≠ k)) = [] := by
    simp
  rw [hold, List.nil_append, List.filter_eq_self.mpr fun r hr => by simpa using hnew r hr]

theorem filter_rewritten_of_ne (parent : α → κ) {k k' : κ} {new : List α}
    (hnew : ∀ r ∈ new, parent r = k) (hk : k' ≠ k) (old : List α) :
    (old.filter (fun r => parent r ≠ k) ++ new).filter (fun r => parent r = k') =
      old.filter (fun r => parent r = k') := by
  have hnone : new.filter (fun r => parent r = k') = [] :=
    List.filter_eq_nil_iff.mpr fun r hr => by simpa [hnew r hr] using Ne.symm hk
  rw [List.filter_append, hnone, List.append_nil, List.filter_filter]
  refine List.filter_congr fun r _ => ?_
  by_cases hr : parent r = k'
  · simp [hr, hk]
  · simp [hr]

theorem filter_deleted_of_ne (parent : α → κ) {k k' : κ} (hk : k' ≠ k) (old : List α) :
    (old.filter (fun r => parent r ≠ k)).filter (fun r => parent r = k') =
      old.filter (fun r => parent r = k') := by
  have h := filter_rewritten_of_ne parent (List.forall_mem_nil (fun r => parent r = k)) hk old
  rwa [List.append_nil] at h

end Tables

section Difference

variable {α κ : Type} [DecidableEq κ]

/-- The records of a list that are not the stored ones. -/
def changed (after : List (Obj α)) : List α := vals (after.filter Obj.fresh)

/-- The keys that were stored and are gone. -/
def removed (key : α → κ) (before : List α) (after : List (Obj α)) : List κ :=
  (before.map key).filter (fun k => k ∉ (vals after).map key)

omit [DecidableEq κ] in
/-- `after` is `before` with entries gone and entries replaced in place, and then new keys. -/
def Follows (key : α → κ) (before : List α) (after : List (Obj α)) : Prop :=
  ∃ old new, after = old ++ new ∧
    List.Sublist ((vals old).map key) (before.map key) ∧
    (∀ o ∈ old, o.fresh = false → o.val ∈ before) ∧
    (∀ o ∈ new, o.fresh = true ∧ key o.val ∉ before.map key) ∧
    ((vals new).map key).Nodup

theorem exists_of_mem_forall₂ {β : Type} {R : α → β → Prop} {xs : List α} {ys : List β}
    (h : List.Forall₂ R xs ys) {x : α} (hx : x ∈ xs) : ∃ y ∈ ys, R x y := by
  induction h with
  | nil => cases hx
  | cons hr _ ih =>
    rcases List.mem_cons.mp hx with rfl | hx
    · exact ⟨_, List.mem_cons_self, hr⟩
    · obtain ⟨y, hy, hry⟩ := ih hx
      exact ⟨y, List.mem_cons_of_mem _ hy, hry⟩

namespace Follows

variable {key : α → κ} {before : List α} {after : List (Obj α)}

omit [DecidableEq κ]

theorem keep (key : α → κ) (before : List α) : Follows key before (keep before) :=
  ⟨Lib.keep before, [], by simp, by simp, fun _ ho _ => (mem_keep ho).2, by simp, by simp [vals]⟩

theorem sublist {after' : List (Obj α)} (h : Follows key before after)
    (hs : List.Sublist after' after) : Follows key before after' := by
  obtain ⟨old, new, rfl, hkeys, hold, hnew, hnodup⟩ := h
  obtain ⟨old', new', rfl, ho, hn⟩ := List.sublist_append_iff.mp hs
  refine ⟨old', new', rfl, ?_, ?_, ?_, ?_⟩
  · exact ((ho.map Obj.val).map key).trans hkeys
  · exact fun o hmem => hold o (ho.subset hmem)
  · exact fun o hmem => hnew o (hn.subset hmem)
  · exact ((hn.map Obj.val).map key).nodup hnodup

/-- `o'` stands where `o` stood: `o` itself, or a new record of its key. -/
def Rewrites (key : α → κ) (o' o : Obj α) : Prop :=
  key o'.val = key o.val ∧ (o' = o ∨ o'.fresh = true)

theorem keys_eq_of_rewrites {after' : List (Obj α)}
    (hr : List.Forall₂ (Rewrites key) after' after) :
    (vals after').map key = (vals after).map key := by
  induction hr with
  | nil => rfl
  | cons h _ ih => simpa [vals, h.1] using ih

/-- Entries rewritten in place. -/
theorem rewrite {after' : List (Obj α)} (h : Follows key before after)
    (hr : List.Forall₂ (Rewrites key) after' after) : Follows key before after' := by
  obtain ⟨old, new, rfl, hkeys, hold, hnew, hnodup⟩ := h
  have hr₁ := List.forall₂_take_append after' old new hr
  have hr₂ := List.forall₂_drop_append after' old new hr
  refine ⟨_, _, (List.take_append_drop old.length after').symm, ?_, ?_, ?_, ?_⟩
  · rw [keys_eq_of_rewrites hr₁]
    exact hkeys
  · intro o' ho' hfresh
    obtain ⟨o, ho, -, he | he⟩ := exists_of_mem_forall₂ hr₁ ho'
    · exact hold o ho (he ▸ hfresh) |> fun h => he ▸ h
    · rw [he] at hfresh
      cases hfresh
  · intro o' ho'
    obtain ⟨o, ho, hk, he⟩ := exists_of_mem_forall₂ hr₂ ho'
    refine ⟨?_, hk ▸ (hnew o ho).2⟩
    rcases he with rfl | he
    · exact (hnew o' ho).1
    · exact he
  · rw [keys_eq_of_rewrites hr₂]
    exact hnodup

theorem map (h : Follows key before after) (f : Obj α → Obj α)
    (hf : ∀ o, Rewrites key (f o) o) : Follows key before (after.map f) :=
  h.rewrite (List.forall₂_map_left_iff.mpr (List.forall₂_same.mpr fun o _ => hf o))

theorem replaceFirst (h : Follows key before after) {p : α → Bool} {x : α}
    (hx : ∀ o ∈ after, p o.val → key o.val = key x) :
    Follows key before (replaceFirst p x after) := by
  apply h.rewrite
  clear h
  induction after with
  | nil => exact .nil
  | cons o os ih =>
    have hsame : List.Forall₂ (Rewrites key) os os :=
      List.forall₂_same.mpr fun o _ => ⟨rfl, .inl rfl⟩
    rw [Lib.replaceFirst]
    split
    · rename_i hp
      exact .cons ⟨(hx o List.mem_cons_self hp).symm, .inr rfl⟩ hsame
    · exact .cons ⟨rfl, .inl rfl⟩ (ih fun o ho => hx o (List.mem_cons_of_mem _ ho))

/-- A new record of a new key at the end. -/
theorem snoc (h : Follows key before after) {x : α} (hx : key x ∉ before.map key)
    (hx' : key x ∉ (vals after).map key) : Follows key before (after ++ [⟨x, true⟩]) := by
  obtain ⟨old, new, rfl, hkeys, hold, hnew, hnodup⟩ := h
  refine ⟨old, new ++ [⟨x, true⟩], (List.append_assoc ..).symm ▸ rfl, hkeys, hold, ?_, ?_⟩
  · intro o ho
    rcases List.mem_append.mp ho with ho | ho
    · exact hnew o ho
    · rw [List.mem_singleton.mp ho]
      exact ⟨rfl, hx⟩
  · rw [vals_append, List.map_append, List.nodup_append]
    refine ⟨hnodup, by simp [vals], ?_⟩
    intro a ha b hb hab
    simp only [vals, List.map_cons, List.map_nil, List.mem_singleton] at hb
    apply hx'
    rw [vals_append, List.map_append, List.mem_append, ← hb, ← hab]
    exact .inr ha

theorem nodup (h : Follows key before after) (hb : (before.map key).Nodup) :
    ((vals after).map key).Nodup := by
  obtain ⟨old, new, rfl, hkeys, -, hnew, hnodup⟩ := h
  rw [vals_append, List.map_append, List.nodup_append]
  refine ⟨hkeys.nodup hb, hnodup, ?_⟩
  intro a ha b hb' hab
  obtain ⟨x, hx, rfl⟩ := List.mem_map.mp hb'
  obtain ⟨o, ho, rfl⟩ := List.mem_map.mp hx
  exact (hnew o ho).2 (hab ▸ hkeys.subset ha)

/-- A kept entry is a stored record. -/
theorem kept_mem (h : Follows key before after) {o : Obj α} (ho : o ∈ after)
    (hfresh : o.fresh = false) : o.val ∈ before := by
  obtain ⟨old, new, rfl, -, hold, hnew, -⟩ := h
  rcases List.mem_append.mp ho with ho | ho
  · exact hold o ho hfresh
  · rw [(hnew o ho).1] at hfresh
    cases hfresh

end Follows

/-! ### Storing the difference -/

theorem foldl_upsert_cons (key : α → κ) (y : α) (xs l : List α) (h : key y ∉ xs.map key) :
    xs.foldl (fun l x => upsert key x l) (y :: l) = y :: xs.foldl (fun l x => upsert key x l) l := by
  induction xs generalizing l with
  | nil => rfl
  | cons x xs ih =>
    simp only [List.map_cons, List.mem_cons, not_or] at h
    rw [List.foldl_cons, List.foldl_cons, upsert, if_neg h.1, ih _ h.2]

theorem foldl_upsert_append (key : α → κ) (xs l : List α) (h : ((l ++ xs).map key).Nodup) :
    xs.foldl (fun l x => upsert key x l) l = l ++ xs := by
  induction xs generalizing l with
  | nil => simp
  | cons x xs ih =>
    have hx : key x ∉ l.map key := by
      rw [List.map_append, List.nodup_append] at h
      intro hx
      exact h.2.2 _ hx _ (by simp) rfl
    rw [List.foldl_cons, upsert_of_not_mem key x hx, ih _ (by simpa using h)]
    simp

/-- The keys of the rows and of the entries agree, so each upsert finds its place. -/
theorem foldl_upsert_changed {key : α → κ} (old : List (Obj α)) (rows : List α)
    (hkeys : rows.map key = (vals old).map key) (hnodup : (rows.map key).Nodup)
    (hold : ∀ o ∈ old, o.fresh = false → o.val ∈ rows) :
    (changed old).foldl (fun l x => upsert key x l) rows = vals old := by
  induction old generalizing rows with
  | nil =>
    rw [List.map_eq_nil_iff.mp hkeys]
    rfl
  | cons o old ih =>
    obtain ⟨r, rows, rfl⟩ : ∃ r rs, rows = r :: rs := by
      cases rows with
      | nil => cases hkeys
      | cons r rs => exact ⟨r, rs, rfl⟩
    simp only [vals, List.map_cons, List.cons.injEq] at hkeys
    rw [List.map_cons, List.nodup_cons] at hnodup
    have hrest : ∀ o' ∈ old, o'.fresh = false → o'.val ∈ rows := by
      intro o' ho' hfresh
      rcases List.mem_cons.mp (hold o' (List.mem_cons_of_mem _ ho') hfresh) with he | hm
      · refine absurd ?_ hnodup.1
        rw [hkeys.2, ← he]
        exact List.mem_map_of_mem (List.mem_map_of_mem ho')
      · exact hm
    have hih := ih rows hkeys.2 hnodup.2 hrest
    have hsub : List.Sublist ((changed old).map key) (rows.map key) := by
      rw [hkeys.2]
      exact (List.filter_sublist.map Obj.val).map key
    cases hfresh : o.fresh with
    | true =>
      have hchanged : changed (o :: old) = o.val :: changed old := by simp [changed, vals, hfresh]
      rw [hchanged, List.foldl_cons, upsert, if_pos hkeys.1,
        foldl_upsert_cons key _ _ _ (hkeys.1 ▸ fun h => hnodup.1 (hsub.subset h)), hih]
      rfl
    | false =>
      have hchanged : changed (o :: old) = changed old := by simp [changed, vals, hfresh]
      have hr : r = o.val := by
        rcases List.mem_cons.mp (hold o List.mem_cons_self hfresh) with he | hm
        · exact he.symm
        · exact absurd (hkeys.1 ▸ List.mem_map_of_mem hm) hnodup.1
      rw [hchanged, foldl_upsert_cons key _ _ _ (fun h => hnodup.1 (hsub.subset h)), hih, hr]
      rfl

/-- Filtering a list without repetition by membership in a sublist gives the sublist. -/
theorem filter_eq_of_sublist {β : Type} {p : β → Bool} {ks l : List β} (h : List.Sublist ks l)
    (hl : l.Nodup) (hp : ∀ x ∈ l, p x = true ↔ x ∈ ks) : l.filter p = ks := by
  induction h with
  | slnil => rfl
  | @cons ks l k h ih =>
    rw [List.nodup_cons] at hl
    have hk : ¬ p k = true := fun hk => hl.1 (h.subset ((hp k List.mem_cons_self).mp hk))
    rw [List.filter_cons_of_neg hk, ih hl.2 fun x hx => hp x (List.mem_cons_of_mem _ hx)]
  | @cons_cons ks l k h ih =>
    rw [List.nodup_cons] at hl
    rw [List.filter_cons_of_pos ((hp k List.mem_cons_self).mpr List.mem_cons_self), ih hl.2]
    intro x hx
    have hne : x ≠ k := fun he => hl.1 (he ▸ hx)
    rw [hp x (List.mem_cons_of_mem _ hx), List.mem_cons]
    simp [hne]

/-- Deleting what is gone and upserting what is new stores the list. -/
theorem Follows.store {key : α → κ} {before : List α} {after : List (Obj α)}
    (h : Follows key before after) (hb : (before.map key).Nodup) :
    (changed after).foldl (fun l x => upsert key x l)
      (deleteKeys key (removed key before after) before) = vals after := by
  have hnodup := h.nodup hb
  obtain ⟨old, new, rfl, hkeys, hold, hnew, -⟩ := h
  have hdel : ∀ x ∈ before, (key x ∉ removed key before (old ++ new)) ↔
      key x ∈ (vals old).map key := by
    intro x hx
    have hx' := List.mem_map_of_mem (f := key) hx
    have hnot : key x ∉ (vals new).map key := by
      intro hm
      obtain ⟨y, hy, hk⟩ := List.mem_map.mp hm
      obtain ⟨o, ho, rfl⟩ := List.mem_map.mp hy
      exact (hnew o ho).2 (hk ▸ hx')
    simp only [removed, List.mem_filter, hx', true_and, decide_eq_true_eq, not_not, vals_append,
      List.map_append, List.mem_append, hnot, or_false]
  have hrows : (deleteKeys key (removed key before (old ++ new)) before).map key =
      (vals old).map key := by
    have hmap : (before.map key).filter (fun k => k ∉ removed key before (old ++ new)) =
        (vals old).map key := by
      refine filter_eq_of_sublist hkeys hb fun k hk => ?_
      obtain ⟨x, hx, rfl⟩ := List.mem_map.mp hk
      rw [decide_eq_true_eq]
      exact hdel x hx
    rw [← hmap, List.filter_map]
    rfl
  have hchanged : changed (old ++ new) = changed old ++ vals new := by
    have hall : new.filter Obj.fresh = new := List.filter_eq_self.mpr fun o ho => (hnew o ho).1
    rw [changed, List.filter_append, vals_append, hall]
    rfl
  rw [hchanged, List.foldl_append, foldl_upsert_changed old _ hrows (hrows ▸ hkeys.nodup hb) ?_,
    foldl_upsert_append key _ _ (by rw [← vals_append]; exact hnodup), vals_append]
  intro o ho hfresh
  have hmem := hold o ho hfresh
  rw [deleteKeys, List.mem_filter]
  exact ⟨hmem, by simpa using (hdel _ hmem).mpr (List.mem_map_of_mem (List.mem_map_of_mem ho))⟩

/-! ### Records that are deleted and inserted again -/

/-- The row of the key of `x` deleted and `x` inserted. -/
def reinsert (key : α → κ) (x : α) (l : List α) : List α := l.filter (fun y => key y ≠ key x) ++ [x]

/-- `after` is some of the stored records in their order and then new ones, which may have the keys
    of stored records that are not among them. -/
def Reordered (key : α → κ) (before : List α) (after : List (Obj α)) : Prop :=
  ∃ old new, after = keep old ++ new ∧ List.Sublist old before ∧ (∀ o ∈ new, o.fresh = true) ∧
    ((vals after).map key).Nodup

theorem foldl_reinsert (key : α → κ) (xs l : List α) (h : (xs.map key).Nodup) :
    xs.foldl (fun l x => reinsert key x l) l = deleteKeys key (xs.map key) l ++ xs := by
  induction xs generalizing l with
  | nil => simp
  | cons x xs ih =>
    rw [List.map_cons, List.nodup_cons] at h
    have hx : deleteKeys key (xs.map key) [x] = [x] := by
      rw [deleteKeys, List.filter_cons_of_pos (by simpa using h.1), List.filter_nil]
    rw [List.foldl_cons, ih _ h.2, reinsert, List.map_cons, deleteKeys_cons]
    have happ : ∀ as bs : List α, deleteKeys key (xs.map key) (as ++ bs) =
        deleteKeys key (xs.map key) as ++ deleteKeys key (xs.map key) bs :=
      fun as bs => List.filter_append ..
    rw [happ, hx, List.append_assoc]
    rfl

/-- Deleting what is gone and reinserting what is new stores the list. -/
theorem Reordered.store {key : α → κ} {before : List α} {after : List (Obj α)}
    (h : Reordered key before after) (hb : (before.map key).Nodup) :
    (changed after).foldl (fun l x => reinsert key x l)
      (deleteKeys key (removed key before after) before) = vals after := by
  obtain ⟨old, new, rfl, hsub, hnew, hnodup⟩ := h
  have hchanged : changed (keep old ++ new) = vals new := by
    have hall : new.filter Obj.fresh = new := List.filter_eq_self.mpr hnew
    have hnone : (keep old).filter Obj.fresh = [] :=
      List.filter_eq_nil_iff.mpr fun o ho => by simp [(mem_keep ho).1]
    rw [changed, List.filter_append, hall, hnone, List.nil_append]
  rw [vals_append, vals_keep, List.map_append, List.nodup_append] at hnodup
  rw [hchanged, foldl_reinsert key _ _ hnodup.2.1, vals_append, vals_keep]
  congr 1
  -- what is left are the records of `before` whose keys are kept, and those are `old`
  have hkeep : ∀ x ∈ before, (key x ∉ (vals new).map key ∧
      key x ∉ removed key before (keep old ++ new)) ↔ x ∈ old := by
    intro x hx
    have hx' := List.mem_map_of_mem (f := key) hx
    simp only [removed, List.mem_filter, hx', true_and, decide_eq_true_eq, not_not, vals_append,
      vals_keep, List.map_append, List.mem_append]
    constructor
    · rintro ⟨hn, ho | ho⟩
      · obtain ⟨y, hy, hk⟩ := List.mem_map.mp ho
        exact List.inj_on_of_nodup_map hb (hsub.subset hy) hx hk ▸ hy
      · exact absurd ho hn
    · intro ho
      have hk := List.mem_map_of_mem (f := key) ho
      exact ⟨fun hn => hnodup.2.2 _ hk _ hn rfl, .inl hk⟩
  rw [deleteKeys, deleteKeys, List.filter_filter]
  refine filter_eq_of_sublist hsub hb.of_map fun x hx => ?_
  rw [Bool.and_eq_true, decide_eq_true_eq, decide_eq_true_eq]
  exact hkeep x hx

end Difference

end Simlock.Lib
