import Mathlib.Data.List.Induction
import Mainline.Bencode.Value
import Mainline.Proofs.Basic

/-!
# Dictionaries

A dictionary is built from entries in any order and keeps them sorted by their keys. This module
says what is in it: the entries it was built from, each key once, in ascending order.

## Main results

* `Value.canonical_ofEntries`: a dictionary is sorted, whatever it was built from.
* `Value.lookup_sorted`: a key is looked up among the entries it was built from.
* `Value.ofEntries_of_pairwise`: entries that are sorted already are kept as they are.
-/

namespace Mainline.Bencode

namespace Value

/-! ### Depth and order of containers -/

theorem depthItems_le_iff {items : List Value} {n : ℕ} :
    depthItems items ≤ n ↔ ∀ v ∈ items, depth v < n := by
  induction items with
  | nil => simp [depthItems]
  | cons v items ih => rw [depthItems, Nat.max_le, ih, List.forall_mem_cons, Nat.add_one_le_iff]

theorem depthEntries_le_iff {entries : List (Bytes × Value)} {n : ℕ} :
    depthEntries entries ≤ n ↔ ∀ entry ∈ entries, depth entry.2 < n := by
  induction entries with
  | nil => simp [depthEntries]
  | cons entry entries ih => rw [depthEntries, Nat.max_le, ih, List.forall_mem_cons, Nat.add_one_le_iff]

theorem canonicalItems_iff {items : List Value} :
    CanonicalItems items ↔ ∀ v ∈ items, Canonical v := by
  induction items with
  | nil => simp [CanonicalItems]
  | cons v items ih => simp [CanonicalItems, ih]

theorem canonicalEntries_iff {entries : List (Bytes × Value)} :
    CanonicalEntries entries ↔ ∀ entry ∈ entries, Canonical entry.2 := by
  induction entries with
  | nil => simp [CanonicalEntries]
  | cons entry entries ih => simp [CanonicalEntries, ih]

/-! ### Putting a value under a key -/

theorem mem_insertEntry {key : Bytes} {value : Value} {entries : List (Bytes × Value)}
    {entry : Bytes × Value} (h : entry ∈ insertEntry key value entries) :
    entry = (key, value) ∨ entry ∈ entries := by
  fun_induction insertEntry key value entries with
  | case1 => exact .inl (List.mem_singleton.mp h)
  | case2 v entries => exact (List.mem_cons.mp h).imp_right (List.mem_cons_of_mem _)
  | case3 => exact List.mem_cons.mp h
  | case4 k v entries hne hlt ih =>
      obtain rfl | h := List.mem_cons.mp h
      · exact .inr List.mem_cons_self
      · exact (ih h).imp_right (List.mem_cons_of_mem _)

/-- The entries stay sorted. -/
theorem pairwise_insertEntry (key : Bytes) (value : Value) {entries : List (Bytes × Value)}
    (h : (entries.map Prod.fst).Pairwise (· < ·)) :
    ((insertEntry key value entries).map Prod.fst).Pairwise (· < ·) := by
  fun_induction insertEntry key value entries with
  | case1 => simp
  | case2 v entries => exact h
  | case3 k v entries hne hlt =>
      rw [List.map_cons, List.pairwise_cons]
      refine ⟨fun k' hk' => ?_, h⟩
      rw [List.map_cons, List.pairwise_cons] at h
      obtain rfl | hk' := List.mem_cons.mp hk'
      · exact hlt
      · exact List.lt_trans hlt (h.1 k' hk')
  | case4 k v entries hne hlt ih =>
      rw [List.map_cons, List.pairwise_cons] at h ⊢
      refine ⟨fun k' hk' => ?_, ih h.2⟩
      obtain ⟨entry, hentry, rfl⟩ := List.mem_map.mp hk'
      obtain rfl | hentry := mem_insertEntry hentry
      · exact (List.le_iff_lt_or_eq.mp (List.not_lt.mp hlt)).resolve_right (Ne.symm hne)
      · exact h.1 _ (List.mem_map_of_mem hentry)

/-- The value is found under the key, and what is under other keys stays. -/
theorem lookup_insertEntry (key : Bytes) (value : Value) (entries : List (Bytes × Value))
    (key' : Bytes) :
    (insertEntry key value entries).lookup key' =
      if key' = key then some value else entries.lookup key' := by
  fun_induction insertEntry key value entries with
  | case1 => rw [lookup_cons_eq_ite]
  | case2 v entries =>
      simp only [lookup_cons_eq_ite]
      split <;> rfl
  | case3 k v entries hne hlt => rw [lookup_cons_eq_ite]
  | case4 k v entries hne hlt ih =>
      simp only [lookup_cons_eq_ite, ih]
      by_cases hk : key' = k
      · simp [hk, Ne.symm hne]
      · simp [hk]

/-- A key above all others is put behind them. -/
theorem insertEntry_of_forall_lt {key : Bytes} {value : Value} {entries : List (Bytes × Value)}
    (h : ∀ entry ∈ entries, entry.1 < key) :
    insertEntry key value entries = entries ++ [(key, value)] := by
  induction entries with
  | nil => rfl
  | cons entry entries ih =>
      obtain ⟨k, v⟩ := entry
      have hk : k < key := h (k, v) List.mem_cons_self
      have hne : key ≠ k := by
        rintro rfl
        exact List.lt_irrefl _ hk
      rw [insertEntry, if_neg hne, if_neg (List.lt_asymm hk),
        ih fun entry hentry => h entry (List.mem_cons_of_mem _ hentry), List.cons_append]

/-! ### Building a dictionary -/

/-- The entries of the dictionary that is built from these. -/
def sorted (entries : List (Bytes × Value)) : List (Bytes × Value) :=
  entries.foldl (fun sorted (key, value) => insertEntry key value sorted) []

theorem ofEntries_eq (entries : List (Bytes × Value)) : ofEntries entries = dict (sorted entries) :=
  rfl

theorem sorted_concat (entries : List (Bytes × Value)) (key : Bytes) (value : Value) :
    sorted (entries ++ [(key, value)]) = insertEntry key value (sorted entries) := by
  simp [sorted]

theorem mem_of_mem_sorted {entries : List (Bytes × Value)} {entry : Bytes × Value}
    (h : entry ∈ sorted entries) : entry ∈ entries := by
  induction entries using List.reverseRecOn with
  | nil => exact h
  | append_singleton entries last ih =>
      obtain ⟨key, value⟩ := last
      rw [sorted_concat] at h
      obtain rfl | h := mem_insertEntry h
      · exact List.mem_append_right _ List.mem_cons_self
      · exact List.mem_append_left _ (ih h)

theorem pairwise_sorted (entries : List (Bytes × Value)) :
    ((sorted entries).map Prod.fst).Pairwise (· < ·) := by
  induction entries using List.reverseRecOn with
  | nil => exact List.Pairwise.nil
  | append_singleton entries last ih =>
      obtain ⟨key, value⟩ := last
      rw [sorted_concat]
      exact pairwise_insertEntry key value ih

/-- **A dictionary is sorted**, whatever it was built from. -/
theorem canonical_ofEntries {entries : List (Bytes × Value)}
    (h : ∀ entry ∈ entries, Canonical entry.2) : Canonical (ofEntries entries) :=
  ⟨pairwise_sorted entries,
    canonicalEntries_iff.mpr fun entry hentry => h entry (mem_of_mem_sorted hentry)⟩

theorem depth_ofEntries_le {entries : List (Bytes × Value)} {n : ℕ}
    (h : ∀ entry ∈ entries, depth entry.2 < n) : depth (ofEntries entries) ≤ n :=
  depthEntries_le_iff.mpr fun entry hentry => h entry (mem_of_mem_sorted hentry)

/-- **A key is looked up among the entries that the dictionary was built from**, if each of them
has a key of its own. -/
theorem lookup_sorted {entries : List (Bytes × Value)} (h : (entries.map Prod.fst).Nodup)
    (key : Bytes) : (sorted entries).lookup key = entries.lookup key := by
  induction entries using List.reverseRecOn with
  | nil => rfl
  | append_singleton entries last ih =>
      obtain ⟨k, v⟩ := last
      rw [List.map_append, List.nodup_append] at h
      obtain ⟨hnodup, -, hout⟩ := h
      rw [sorted_concat, lookup_insertEntry, ih hnodup, List.lookup_append]
      by_cases hk : key = k
      · subst hk
        have habsent : key ∉ entries.map Prod.fst := fun hmem =>
          hout key hmem key List.mem_cons_self rfl
        simp [lookup_eq_none_of_notMem habsent]
      · rw [if_neg hk, lookup_cons_eq_ite, if_neg hk]
        simp

/-- **Entries that are sorted already are kept as they are.** -/
theorem ofEntries_of_pairwise {entries : List (Bytes × Value)}
    (h : (entries.map Prod.fst).Pairwise (· < ·)) : ofEntries entries = dict entries := by
  rw [ofEntries_eq]
  congr 1
  induction entries using List.reverseRecOn with
  | nil => rfl
  | append_singleton entries last ih =>
      obtain ⟨key, value⟩ := last
      rw [List.map_append, List.pairwise_append] at h
      have hlast : ∀ entry ∈ entries, entry.1 < key := fun entry hentry =>
        h.2.2 _ (List.mem_map_of_mem hentry) key List.mem_cons_self
      rw [sorted_concat, ih h.1, insertEntry_of_forall_lt hlast]

end Value

end Mainline.Bencode
