import Mainline.Krpc.Decode
import Mainline.Krpc.Encode
import Mainline.Proofs.Bencode.RoundTrip
import Mainline.Proofs.Contact.Packed

/-!
# Records

A message is a dictionary with known words as keys, and so are its arguments and its fields. This
module says how such a record is read: each field as it was written, whatever the order of the
keys, if no word stands for two fields.

## Main results

* `require_record`, `optional_record`, `optional_record_absent`: the fields of a record.
* `fits_record`: a record is one level deeper than its fields.
-/

namespace Mainline.Krpc

open Bencode (Value FieldType)

/-- The keys of a record, as they stand on the wire. -/
def keys (fields : List (String × Value)) : List Bytes :=
  (fields.map Prod.fst).map ascii

variable {fields : List (String × Value)} {name : String} {value : Value} {α : Type}
  {type : FieldType α} {a : α}

theorem map_fst_entries (fields : List (String × Value)) :
    (fields.map fun (name, value) => (ascii name, value)).map Prod.fst = keys fields := by
  simp [keys, Function.comp_def]

/-- What stands under a key of a record. -/
theorem field_record (hkeys : (keys fields).Nodup) (hmem : (name, value) ∈ fields) :
    (record fields).field (ascii name) = .ok value := by
  have hnodup := (map_fst_entries fields).symm ▸ hkeys
  have hentry : (ascii name, value) ∈ fields.map fun (name, value) => (ascii name, value) :=
    List.mem_map_of_mem (f := fun (name, value) => (ascii name, value)) hmem
  rw [record, Value.ofEntries_eq, Value.field, Value.lookup_sorted hnodup,
    (lookup_eq_some_iff_mem hnodup).mpr hentry]

/-- Nothing stands under what is no key of a record. -/
theorem field_record_absent (hkeys : (keys fields).Nodup) (habsent : ascii name ∉ keys fields) :
    (record fields).field (ascii name) = .error (.missing (ascii name)) := by
  have hnodup := (map_fst_entries fields).symm ▸ hkeys
  rw [← map_fst_entries] at habsent
  rw [record, Value.ofEntries_eq, Value.field, Value.lookup_sorted hnodup,
    lookup_eq_none_of_notMem habsent]

/-- A field that has to be there is read from what stands under its key. -/
theorem require_of_field {v : Value} (hfield : v.field (ascii name) = .ok value)
    (hread : type.read value = some a) : require v name type = .ok a := by
  rw [require, Value.require, hfield]
  simp only [hread]
  rfl

/-- A field that has to be there reads back. -/
theorem require_record (value : Value) (hkeys : (keys fields).Nodup) (hmem : (name, value) ∈ fields)
    (hread : type.read value = some a) : require (record fields) name type = .ok a :=
  require_of_field (field_record hkeys hmem) hread

/-- A field that may be absent reads back if it is there. -/
theorem optional_record (value : Value) (hkeys : (keys fields).Nodup) (hmem : (name, value) ∈ fields)
    (hread : type.read value = some a) : optional (record fields) name type = .ok (some a) := by
  rw [optional, Value.optional, Value.require, field_record hkeys hmem]
  simp only [hread]
  rfl

/-- A field that is absent is read as such. -/
theorem optional_record_absent (hkeys : (keys fields).Nodup)
    (habsent : ascii name ∉ keys fields) : optional (record fields) name type = .ok none := by
  rw [optional, Value.optional, Value.require, field_record_absent hkeys habsent]
  rfl

/-- A field that is written if there is something to write reads back as it was. -/
theorem optional_record_option {β : Type} {before after : List (String × Value)} (write : β → Value)
    {read : β → α} (hread : ∀ b, type.read (write b) = some (read b)) {field : Option β}
    (hfields : fields = before ++ field.toList.map (fun b => (name, write b)) ++ after)
    (hkeys : (keys fields).Nodup) (habsent : ascii name ∉ keys (before ++ after)) :
    optional (record fields) name type = .ok (field.map read) := by
  cases field with
  | none =>
      rw [Option.toList_none, List.map_nil, List.append_nil] at hfields
      rw [← hfields] at habsent
      exact optional_record_absent hkeys habsent
  | some b => exact optional_record (write b) hkeys (by simp [hfields]) (hread b)

/-- A key in a field reads back. -/
theorem requireKey_record {key : Key} (hkeys : (keys fields).Nodup)
    (hmem : (name, .bytes key.toBytes) ∈ fields) :
    requireKey (record fields) name = .ok key := by
  rw [requireKey, require_record _ hkeys hmem rfl]
  simp only [ok_bind, Key.ofBytes?_toBytes]
  rfl

/-! ### Writing records -/

/-- The value **fits** into so many levels of containers, and its dictionaries are sorted. -/
def Fits (levels : ℕ) (v : Value) : Prop :=
  v.Canonical ∧ v.depth ≤ levels

@[simp] theorem fits_bytes (levels : ℕ) (s : Bytes) : Fits levels (.bytes s) :=
  ⟨trivial, Nat.zero_le _⟩

@[simp] theorem fits_int (levels : ℕ) (n : Int64) : Fits levels (.int n) :=
  ⟨trivial, Nat.zero_le _⟩

theorem Fits.mono {levels more : ℕ} {v : Value} (h : Fits levels v) (hle : levels ≤ more) :
    Fits more v :=
  ⟨h.1, Nat.le_trans h.2 hle⟩

theorem fits_list {levels : ℕ} {items : List Value} (h : ∀ v ∈ items, Fits levels v) :
    Fits (levels + 1) (.list items) :=
  ⟨Value.canonicalItems_iff.mpr fun v hv => (h v hv).1,
    Value.depthItems_le_iff.mpr fun v hv => Nat.lt_succ_of_le (h v hv).2⟩

theorem fits_record {levels : ℕ} (h : ∀ field ∈ fields, Fits levels field.2) :
    Fits (levels + 1) (record fields) := by
  have hentries : ∀ entry ∈ fields.map fun (name, value) => (ascii name, value),
      Fits levels entry.2 := by
    intro entry hentry
    obtain ⟨field, hfield, rfl⟩ := List.mem_map.mp hentry
    exact h field hfield
  exact ⟨Value.canonical_ofEntries fun entry hentry => (hentries entry hentry).1,
    Value.depth_ofEntries_le fun entry hentry => Nat.lt_succ_of_le (hentries entry hentry).2⟩

end Mainline.Krpc
