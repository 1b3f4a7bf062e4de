import Mainline.Error
import Mainline.Proofs.Checked
import Mainline.Proofs.Contact.Packed

/-!
# Unpacking by offsets

Packed contacts and peers are records of fixed length, and their parts stand at fixed offsets. Here
they are unpacked by these: the octets are divided into chunks of twenty-six, a chunk is sliced
after its first twenty octets, and the parts of an address are taken one by one. Each slice and
each octet is checked, and a slice that is no key is a failure of its own, other than that of a
wrong length.

After the length has been looked at, nothing goes wrong any more: what is unpacked by offsets is
what is read off the front of the octets, and the only failure is that of the length.

## Main results

* `Contact.unpackAll?_eq_none_iff`: contacts can be unpacked exactly if their records are whole.
* `Contact.unpackChecked_eq`, `Address.unpackChecked_eq`: unpacking by offsets is unpacking.
-/

namespace Mainline

open Checked

/-- What is malformed is a failure of the checked computation. -/
def Krpc.checked {α : Type} (x : Except Krpc.Malformed α) : Except (Stop Error) α :=
  x.mapError fun cause => .fails (.malformed cause)

/-! ### Unpacking with every access checked -/

/-- The address that the first six octets stand for. -/
def Address.ofOctets (s : Bytes) : Except (Stop Error) Address := do
  let a ← octet s 0
  let b ← octet s 1
  let c ← octet s 2
  let d ← octet s 3
  let high ← octet s 4
  let low ← octet s 5
  .ok (.v4 ⟨a, b, c, d⟩ (UInt16.ofNat (ofBigEndian [high, low])))

/-- The address that six octets stand for. -/
def Address.unpackChecked (s : Bytes) : Except (Stop Error) Address :=
  if s.length = 6 then ofOctets s
  else .error (.fails (.malformed (.peerLength s.length)))

/-- As many chunks of this length as the octets hold. -/
def chunks (length : ℕ) (s : Bytes) : List Bytes :=
  (List.range (s.length / length)).map fun i => (s.drop (i * length)).take length

namespace Contact

/-- The contact in a chunk. -/
def ofChunk (chunk : Bytes) : Except (Stop Error) Contact := do
  let front ← slice chunk 0 keyLength
  match Key.ofBytes? front with
  | none => .error (.fails .keyLength)
  | some id =>
    let back ← slice chunk keyLength chunk.length
    let address ← Address.ofOctets back
    .ok ⟨id, address⟩

/-- The contacts that stand one behind the other. -/
def unpackChecked (s : Bytes) : Except (Stop Error) (List Contact) :=
  if s.length % packedLength = 0 then (chunks packedLength s).mapM ofChunk
  else .error (.fails (.malformed (.contactsLength s.length)))

end Contact

/-! ### Addresses -/

/-- Six octets stand for an address, and no other number of octets does. -/
theorem Address.unpack?_eq_none_iff {s : Bytes} : Address.unpack? s = none ↔ s.length ≠ 6 := by
  unfold Address.unpack?
  split
  · simp
  · next hne =>
      refine ⟨fun _ hlength => ?_, fun _ => rfl⟩
      match s, hlength with
      | [a, b, c, d, e, f], _ => exact hne a b c d e f rfl

/-- The octets of an address are where they are looked for. -/
theorem Address.ofOctets_eq {s : Bytes} {address : Address} (h : Address.unpack? s = some address) :
    Address.ofOctets s = .ok address := by
  unfold Address.unpack? at h
  split at h
  · cases h
    rfl
  · cases h

/-- **A peer is unpacked by offsets as it is read.** -/
theorem Address.unpackChecked_eq (s : Bytes) :
    Address.unpackChecked s = Krpc.checked (Krpc.unpackPeer (.bytes s)) := by
  rw [unpackChecked, Krpc.unpackPeer]
  cases h : Address.unpack? s with
  | none =>
      rw [if_neg (unpack?_eq_none_iff.mp h)]
      rfl
  | some address =>
      have hlength : s.length = 6 := by
        by_contra hne
        rw [unpack?_eq_none_iff.mpr hne] at h
        cases h
      rw [if_pos hlength, ofOctets_eq h]
      rfl

/-! ### Contacts -/

/-- The first chunk stands before the others. -/
theorem chunks_of_le {length : ℕ} {s : Bytes} (hpos : 0 < length) (h : length ≤ s.length) :
    chunks length s = s.take length :: chunks length (s.drop length) := by
  have hcount : s.length / length = (s.drop length).length / length + 1 := by
    rw [List.length_drop, Nat.div_eq_sub_div hpos h]
  rw [chunks, hcount, List.range_succ_eq_map, List.map_cons, List.map_map, Nat.zero_mul,
    List.drop_zero, chunks]
  congr 1
  refine List.map_congr_left fun i _ => ?_
  rw [Function.comp_apply, List.drop_drop, Nat.succ_mul, Nat.add_comm]

namespace Contact

/-- A record of the right length is a contact, which is found at the offsets of its parts. -/
theorem exists_ofChunk {chunk : Bytes} (h : chunk.length = packedLength) :
    ∃ contact, unpack? chunk = some contact ∧ ofChunk chunk = .ok contact := by
  have hlength : chunk.length = 26 := h
  have htake : (chunk.take keyLength).length = keyLength := by
    rw [List.length_take, hlength]
    rfl
  have hdrop : (chunk.drop keyLength).length = 6 := by
    rw [List.length_drop, hlength]
    rfl
  obtain ⟨id, hid⟩ : ∃ id, Key.ofBytes? (chunk.take keyLength) = some id := ⟨_, if_pos htake⟩
  obtain ⟨address, haddress⟩ : ∃ address, Address.unpack? (chunk.drop keyLength) = some address :=
    Option.ne_none_iff_exists'.mp fun hnone => Address.unpack?_eq_none_iff.mp hnone hdrop
  have hfront : slice chunk 0 keyLength =
      (.ok (chunk.take keyLength) : Except (Stop Error) Bytes) :=
    if_pos ⟨Nat.zero_le _, by rw [hlength]; decide⟩
  have hback : slice chunk keyLength chunk.length =
      (.ok (chunk.drop keyLength) : Except (Stop Error) Bytes) := by
    rw [slice, if_pos ⟨by rw [hlength]; decide, Nat.le_refl _⟩, ← List.length_drop,
      List.take_length]
  refine ⟨⟨id, address⟩, ?_, ?_⟩
  · rw [unpack?, hid, haddress]
    rfl
  · simp only [ofChunk, hfront, hback, hid, Address.ofOctets_eq haddress, ok_bind]

/-- A record that is cut short is no contact. -/
theorem unpack?_eq_none {s : Bytes} (h : s.length < packedLength) : unpack? s = none := by
  have hshort : (s.drop keyLength).length ≠ 6 := by
    have hlt : s.length < 26 := h
    rw [List.length_drop, keyLength]
    omega
  rw [unpack?, Address.unpack?_eq_none_iff.mpr hshort]
  cases Key.ofBytes? (s.take keyLength) <;> rfl

/-- **Whole records are contacts**, by offsets as well. -/
theorem exists_unpackAll? {count : ℕ} {s : Bytes} (h : s.length = count * packedLength) :
    ∃ contacts, unpackAll? s = some contacts ∧
      (chunks packedLength s).mapM ofChunk = .ok contacts := by
  induction count generalizing s with
  | zero =>
      obtain rfl : s = [] := List.length_eq_zero_iff.mp (h.trans (Nat.zero_mul _))
      exact ⟨[], by rw [unpackAll?, if_pos rfl], rfl⟩
  | succ count ih =>
      rw [Nat.succ_mul] at h
      have hle : packedLength ≤ s.length := h ▸ Nat.le_add_left _ _
      have hne : s ≠ [] := List.ne_nil_of_length_pos (Nat.lt_of_lt_of_le (by decide) hle)
      obtain ⟨contact, hcontact, hchunk⟩ := exists_ofChunk (List.length_take_of_le hle)
      obtain ⟨contacts, hcontacts, hchunks⟩ :=
        ih (s := s.drop packedLength) (by rw [List.length_drop, h, Nat.add_sub_cancel])
      refine ⟨contact :: contacts, ?_, ?_⟩
      · rw [unpackAll?, if_neg hne, hcontact, hcontacts]
        rfl
      · rw [chunks_of_le (by decide) hle, List.mapM_cons, hchunk, ok_bind, hchunks]
        rfl

/-- Nothing is unpacked if the last record is cut short. -/
theorem unpackAll?_eq_none {s : Bytes} (h : s.length % packedLength ≠ 0) : unpackAll? s = none := by
  induction hlength : s.length using Nat.strongRecOn generalizing s with
  | _ n ih =>
      have hne : s ≠ [] := by
        rintro rfl
        exact h rfl
      have hpos : 0 < s.length := List.length_pos_of_ne_nil hne
      rw [unpackAll?, if_neg hne]
      obtain hlt | hle := Nat.lt_or_ge s.length packedLength
      · rw [List.take_of_length_le (Nat.le_of_lt hlt), unpack?_eq_none hlt]
        rfl
      · have hdrop : (s.drop packedLength).length = s.length - packedLength := List.length_drop
        have hrest : unpackAll? (s.drop packedLength) = none := by
          refine ih _ ?_ ?_ hdrop
          · rw [← hlength]
            exact Nat.sub_lt hpos (by decide)
          · rwa [hdrop, ← Nat.mod_eq_sub_mod hle]
        rw [hrest]
        cases unpack? (s.take packedLength) <;> rfl

/-- **Contacts can be unpacked exactly if their records are whole.** -/
theorem unpackAll?_eq_none_iff {s : Bytes} :
    unpackAll? s = none ↔ s.length % packedLength ≠ 0 := by
  refine ⟨fun hnone hmod => ?_, unpackAll?_eq_none⟩
  obtain ⟨contacts, hsome, -⟩ :=
    exists_unpackAll? (Nat.div_mul_cancel (Nat.dvd_of_mod_eq_zero hmod)).symm
  rw [hsome] at hnone
  cases hnone

/-- **Contacts are unpacked by offsets as they are read.** -/
theorem unpackChecked_eq (s : Bytes) :
    unpackChecked s = Krpc.checked (Krpc.unpackContacts s) := by
  rw [unpackChecked, Krpc.unpackContacts]
  split
  · next hmod =>
      obtain ⟨contacts, hsome, hchunks⟩ :=
        exists_unpackAll? (Nat.div_mul_cancel (Nat.dvd_of_mod_eq_zero hmod)).symm
      rw [hsome, hchunks]
      rfl
  · next hmod =>
      rw [unpackAll?_eq_none hmod]
      rfl

end Contact

end Mainline
