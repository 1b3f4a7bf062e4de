import Mathlib.Data.Nat.Notation
import Mainline.Contact.Packed

/-!
# Packed contacts read back

Keys, addresses and contacts read back from the octets they are packed in. Only what has an address
of version 4 has a packed form, and so a list that is packed and read back has lost the rest, in the
same order.

## Main results

* `Contact.unpackAll?_packAll`: a list of contacts reads back without those that cannot be packed.
* `Contact.isV4_of_unpackAll?`: what is read can be packed again.
-/

namespace Mainline

/-! ### Keys -/

theorem Key.length_toBytes (key : Key) : key.toBytes.length = keyLength :=
  bigEndian_length _ _

/-- A key reads back. -/
theorem Key.ofBytes?_toBytes (key : Key) : Key.ofBytes? key.toBytes = some key := by
  have hlt : key.bits.toNat < Nat.pow 256 keyLength := key.bits.isLt
  rw [Key.ofBytes?, if_pos key.length_toBytes, Key.toBytes, ofBigEndian_bigEndian,
    Nat.mod_eq_of_lt hlt, BitVec.ofNat_toNat, BitVec.setWidth_eq]

/-! ### Addresses -/

namespace Address

/-- An address reads back from its packed form, if it has one. -/
theorem unpack?_of_pack? {address : Address} {s : Bytes} (h : address.pack? = some s) :
    s.length = 6 ∧ unpack? s = some address := by
  cases address with
  | v6 host port zone => cases h
  | v4 host port =>
      cases h
      have hport : ofBigEndian (bigEndian 2 port.toNat) = port.toNat := by
        rw [ofBigEndian_bigEndian]
        exact Nat.mod_eq_of_lt port.toNat_lt
      have htwo : bigEndian 2 port.toNat =
          [UInt8.ofNat (port.toNat / 256), UInt8.ofNat port.toNat] := rfl
      rw [htwo] at hport
      refine ⟨by simp, ?_⟩
      rw [htwo, unpack?, hport, UInt16.ofNat_toNat]

theorem isSome_pack? (address : Address) : address.pack?.isSome = address.isV4 := by
  cases address <;> rfl

/-- What is read is an address of version 4. -/
theorem isV4_of_unpack? {s : Bytes} {address : Address} (h : unpack? s = some address) :
    address.isV4 = true := by
  unfold unpack? at h
  split at h
  · cases h
    rfl
  · cases h

end Address

/-! ### Contacts -/

namespace Contact

/-- A contact reads back from its packed form, if it has one. -/
theorem unpack?_of_pack? {contact : Contact} {s : Bytes} (h : contact.pack? = some s) :
    s.length = packedLength ∧ unpack? s = some contact := by
  obtain ⟨packed, haddress, rfl⟩ := Option.map_eq_some_iff.mp h
  obtain ⟨hlength, hread⟩ := Address.unpack?_of_pack? haddress
  have hid := contact.id.length_toBytes
  constructor
  · rw [List.length_append, hid, hlength]
    rfl
  · rw [unpack?, List.take_left' hid, List.drop_left' hid, Key.ofBytes?_toBytes, hread]
    rfl

theorem isSome_pack? (contact : Contact) : contact.pack?.isSome = contact.address.isV4 := by
  rw [pack?, Option.isSome_map, Address.isSome_pack?]

/-- A contact in front of others is read before them. -/
theorem unpackAll?_append {contact : Contact} {s rest : Bytes} (hlength : s.length = packedLength)
    (hread : unpack? s = some contact) :
    unpackAll? (s ++ rest) = (unpackAll? rest).map (contact :: ·) := by
  have hne : s ++ rest ≠ [] := by
    rintro heq
    rw [(List.append_eq_nil_iff.mp heq).1] at hlength
    cases hlength
  rw [unpackAll?, if_neg hne, List.take_left' hlength, List.drop_left' hlength, hread]
  cases unpackAll? rest <;> rfl

/-- **A list of contacts reads back without those that have no packed form.** -/
theorem unpackAll?_packAll (contacts : List Contact) :
    unpackAll? (packAll contacts) = some (contacts.filter (·.address.isV4)) := by
  induction contacts with
  | nil =>
      rw [packAll, List.filterMap_nil, List.flatten_nil, unpackAll?, if_pos rfl]
      rfl
  | cons contact contacts ih =>
      have hsome := contact.isSome_pack?
      cases hpack : contact.pack? with
      | none =>
          rw [hpack] at hsome
          rw [packAll, List.filterMap_cons_none hpack, List.filter_cons_of_neg (by simp [← hsome])]
          exact ih
      | some s =>
          rw [hpack] at hsome
          obtain ⟨hlength, hread⟩ := unpack?_of_pack? hpack
          rw [packAll, List.filterMap_cons_some hpack, List.flatten_cons,
            unpackAll?_append hlength hread, List.filter_cons_of_pos (by simp [← hsome])]
          exact congrArg (Option.map (contact :: ·)) ih

theorem isV4_of_unpack? {s : Bytes} {contact : Contact} (h : unpack? s = some contact) :
    contact.address.isV4 = true := by
  simp only [unpack?, Option.bind_eq_bind, Option.bind_eq_some_iff] at h
  obtain ⟨id, -, address, haddress, heq⟩ := h
  cases heq
  exact Address.isV4_of_unpack? haddress

/-- **What is read can be packed again.** -/
theorem isV4_of_unpackAll? {s : Bytes} {contacts : List Contact} (h : unpackAll? s = some contacts) :
    ∀ contact ∈ contacts, contact.address.isV4 = true := by
  induction contacts generalizing s with
  | nil => simp
  | cons contact contacts ih =>
      rw [unpackAll?] at h
      split at h
      · cases h
      · simp only [Option.bind_eq_bind, Option.bind_eq_some_iff] at h
        obtain ⟨first, hfirst, others, hothers, heq⟩ := h
        cases heq
        intro contact hmem
        obtain rfl | hmem := List.mem_cons.mp hmem
        · exact isV4_of_unpack? hfirst
        · exact ih hothers contact hmem

end Contact

end Mainline
