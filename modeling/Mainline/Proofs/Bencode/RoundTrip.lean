import Mainline.Bencode.Encode
import Mainline.Proofs.Bencode.Grammar

/-!
# Bencode reads back what it writes

The octets that are written for a value denote it, if its dictionaries are sorted: this is one rule
of the grammar for each form of value. What denotes a value is read as the value, however much
follows behind it.

The lengths of byte strings are read as machine words. A byte string whose length is not one could
be written but not read back, and so the values are those that a machine can hold (`Value.Sized`).

## Main results

* `denotes_encode`: what is written for a value denotes it.
* `reads_encode`: a value reads back from the front of what was written.
* `decode_encode`: a whole datagram reads back as the value it was written for.
-/

namespace Mainline.Bencode

/-! ### What is written -/

theorem encodeItems_eq (items : List Value) : encodeItems items = items.flatMap encode := by
  induction items with
  | nil => rfl
  | cons v items ih => rw [encodeItems, ih, List.flatMap_cons]

/-- The form of an entry. -/
def encodeEntry (entry : Bytes × Value) : Bytes :=
  encodeBytes entry.1 ++ encode entry.2

theorem encodeEntries_eq (entries : List (Bytes × Value)) :
    encodeEntries entries = entries.flatMap encodeEntry := by
  induction entries with
  | nil => rfl
  | cons entry entries ih => rw [encodeEntries, ih, List.flatMap_cons, encodeEntry]

namespace Value

mutual

/-- All byte strings in a value, keys included. -/
def strings : Value → List Bytes
  | int _ => []
  | bytes s => [s]
  | list items => stringsItems items
  | dict entries => stringsEntries entries

/-- All byte strings in the items. -/
def stringsItems : List Value → List Bytes
  | [] => []
  | v :: items => strings v ++ stringsItems items

/-- All keys and all byte strings under them. -/
def stringsEntries : List (Bytes × Value) → List Bytes
  | [] => []
  | (key, v) :: entries => key :: strings v ++ stringsEntries entries

end

/-- A machine can hold the value: the length of each byte string is a machine word. -/
def Sized (v : Value) : Prop :=
  ∀ s ∈ v.strings, s.length < UInt64.size

theorem Sized.item {items : List Value} (h : Sized (list items)) {v : Value} (hv : v ∈ items) :
    Sized v := by
  intro s hs
  refine h s ?_
  rw [strings]
  induction items with
  | nil => cases hv
  | cons w items ih =>
      rw [stringsItems, List.mem_append]
      obtain rfl | hv := List.mem_cons.mp hv
      · exact .inl hs
      · refine .inr (ih (fun s' hs' => h s' ?_) hv)
        exact List.mem_append_right _ hs'

theorem Sized.entry {entries : List (Bytes × Value)} (h : Sized (dict entries))
    {entry : Bytes × Value} (hentry : entry ∈ entries) :
    entry.1.length < UInt64.size ∧ Sized entry.2 := by
  have hmem : ∀ s, s = entry.1 ∨ s ∈ entry.2.strings → s ∈ stringsEntries entries := by
    intro s hs
    clear h
    induction entries with
    | nil => cases hentry
    | cons other entries ih =>
        rw [stringsEntries, List.mem_append]
        obtain rfl | hentry := List.mem_cons.mp hentry
        · exact .inl (List.mem_cons.mpr hs)
        · exact .inr (ih hentry)
  exact ⟨h _ (hmem _ (.inl rfl)), fun s hs => h s (hmem s (.inr hs))⟩

end Value

/-! ### Reading it back -/

/-- What is written for a byte string is the length and the octets. -/
theorem bytesForm_encodeBytes {s : Bytes} (h : s.length < UInt64.size) :
    BytesForm (encodeBytes s) s :=
  .intro (digits_ofNat _) h

/-- An entry as it is written. -/
def pairOf (entry : Bytes × Value) : Pair :=
  ⟨encodeBytes entry.1, entry.1, encode entry.2, entry.2⟩

/-- **What is written for a value denotes it**, if its dictionaries are sorted and there are enough
levels for it. -/
theorem denotes_encode {levels depth : ℕ} (hlevels : depth + levels = maxDepth + 1) {v : Value}
    (canonical : v.Canonical) (hdepth : v.depth < levels) (sized : v.Sized) :
    Denotes Canonical depth (encode v) v := by
  induction levels generalizing v depth with
  | zero => exact absurd hdepth (Nat.not_lt_zero _)
  | succ levels ih =>
      have hshallow : depth ≤ maxDepth := by omega
      have hlevels : depth + 1 + levels = maxDepth + 1 := by omega
      cases v with
      | int n =>
          rw [encode]
          exact .int hshallow (canonical_iff.mpr rfl)
      | bytes s =>
          rw [encode]
          exact .bytes hshallow (bytesForm_encodeBytes (sized s List.mem_cons_self))
      | list items =>
          have hitems : ∀ item ∈ items.map fun v => (encode v, v),
              Denotes Canonical (depth + 1) item.1 item.2 := by
            refine List.forall_mem_map.mpr fun v hv => ?_
            refine ih hlevels (Value.canonicalItems_iff.mp canonical v hv) ?_ (sized.item hv)
            exact Value.depthItems_le_iff.mp (Nat.le_of_lt_succ hdepth) v hv
          have hvalues : (items.map fun v => (encode v, v)).map Prod.snd = items := by
            rw [List.map_map]
            exact List.map_id items
          have hform := Denotes.list hshallow hitems
          rw [List.flatMap_map, hvalues] at hform
          rw [encode, encodeItems_eq]
          exact hform
      | dict entries =>
          have hkeys : ∀ p ∈ entries.map pairOf, BytesForm p.keyForm p.key :=
            List.forall_mem_map.mpr fun entry hentry =>
              bytesForm_encodeBytes (sized.entry hentry).1
          have hvalues : ∀ p ∈ entries.map pairOf, Denotes Canonical (depth + 1) p.form p.value := by
            refine List.forall_mem_map.mpr fun entry hentry => ?_
            refine ih hlevels (Value.canonicalEntries_iff.mp canonical.2 _ hentry) ?_
              (sized.entry hentry).2
            exact Value.depthEntries_le_iff.mp (Nat.le_of_lt_succ hdepth) _ hentry
          have hlast : LastWins ((entries.map pairOf).map Pair.entry) entries := by
            have hsorted := Value.ofEntries_of_pairwise canonical.1
            rw [Value.ofEntries_eq, Value.dict.injEq] at hsorted
            have hentries : (entries.map pairOf).map Pair.entry = entries := by
              rw [List.map_map]
              exact List.map_id entries
            rw [lastWins_iff, hentries, hsorted]
          have hform := Denotes.dict hshallow hkeys hvalues hlast
          rw [List.flatMap_map] at hform
          rw [encode, encodeEntries_eq]
          exact hform

/-- **A value reads back from the front of what was written.** -/
theorem reads_encode (total : ℕ) {levels : ℕ} (hlevels : levels ≤ maxDepth + 1) {v : Value}
    (canonical : v.Canonical) (hdepth : v.depth < levels) (sized : v.Sized) (rest : Bytes) :
    Reads (readValue total levels (encode v ++ rest)) v rest := by
  have hlevels := Nat.sub_add_cancel hlevels
  have hform := denotes_encode hlevels canonical hdepth sized
  exact (recognizes_readValue total hlevels _ _ _).mpr ⟨_, hform.mono .inl, rfl⟩

/-- **A datagram reads back as the value it was written for.** -/
theorem decode_encode {v : Value} (canonical : v.Canonical) (hdepth : v.depth ≤ maxDepth)
    (sized : v.Sized) : decode (encode v) = .ok v := by
  have hform := denotes_encode (Nat.zero_add _) canonical (Nat.lt_succ_of_le hdepth) sized
  exact decode_eq_ok_iff.mpr (hform.mono .inl)

end Mainline.Bencode
