import Mainline.Proofs.Contact.Packed
import Mainline.Proofs.Contact.Unpacking
import Mainline.Proofs.Krpc.RoundTrip

/-!
# Packed forms are exact

Contacts and peers have one packed form each, and every string of octets of the right length is the
packed form of something. So packing and unpacking undo each other in both directions: what is
packed and unpacked has lost what has no packed form and nothing else, and what is unpacked and
packed again is the same octets.

The second direction goes record by record, as unpacking does: the octets of a key, of an address
and of a contact are told from what was read of them.

## Main results

* `Contact.packAll_of_unpackAll?`: contacts that were unpacked pack to the octets they came from.
* `packed_forms_are_exact`: both directions, for contacts and for peers.
-/

namespace Mainline

/-- A key that was read spells the octets it was read from. -/
theorem Key.toBytes_of_ofBytes? {s : Bytes} {key : Key} (h : Key.ofBytes? s = some key) :
    key.toBytes = s := by
  rw [Key.ofBytes?] at h
  split at h
  · next hlength =>
      cases h
      have hlt : ofBigEndian s < 2 ^ 160 := by
        have hlt := ofBigEndian_lt s
        rwa [hlength] at hlt
      rw [Key.toBytes, BitVec.toNat_ofNat, Nat.mod_eq_of_lt hlt, ← hlength, bigEndian_ofBigEndian]
  · cases h

/-- An address that was unpacked packs to the octets it came from. -/
theorem Address.pack?_of_unpack? {s : Bytes} {address : Address}
    (h : Address.unpack? s = some address) : address.pack? = some s := by
  unfold Address.unpack? at h
  split at h
  · next a b c d high low =>
      cases h
      have hlt : ofBigEndian [high, low] < UInt16.size := by simpa using ofBigEndian_lt [high, low]
      have hport : bigEndian 2 (UInt16.ofNat (ofBigEndian [high, low])).toNat = [high, low] := by
        rw [UInt16.toNat_ofNat_of_lt' hlt]
        exact bigEndian_ofBigEndian [high, low]
      rw [Address.pack?, hport]
  · cases h

namespace Contact

/-- A contact that was unpacked packs to the octets it came from. -/
theorem pack?_of_unpack? {s : Bytes} {contact : Contact} (h : unpack? s = some contact) :
    contact.pack? = some s := by
  simp only [unpack?, Option.bind_eq_bind, Option.bind_eq_some_iff] at h
  obtain ⟨id, hid, address, haddress, heq⟩ := h
  cases heq
  rw [pack?, Address.pack?_of_unpack? haddress, Option.map_some, Key.toBytes_of_ofBytes? hid,
    List.take_append_drop]

/-- **Contacts that were unpacked pack to the octets they came from.** -/
theorem packAll_of_unpackAll? {s : Bytes} {contacts : List Contact}
    (h : unpackAll? s = some contacts) : packAll contacts = s := by
  induction contacts generalizing s with
  | nil =>
      rw [unpackAll?] at h
      split at h
      · next hnil => exact hnil.symm
      · simp only [Option.bind_eq_bind, Option.bind_eq_some_iff] at h
        obtain ⟨first, -, others, -, heq⟩ := h
        cases heq
  | cons contact contacts ih =>
      rw [unpackAll?] at h
      split at h
      · cases h
      · simp only [Option.bind_eq_bind, Option.bind_eq_some_iff] at h
        obtain ⟨first, hfirst, others, hothers, heq⟩ := h
        cases heq
        have hrest : packAll contacts = s.drop packedLength := ih hothers
        rw [packAll, List.filterMap_cons_some (pack?_of_unpack? hfirst), List.flatten_cons,
          ← packAll, hrest, List.take_append_drop]

end Contact

namespace Krpc

/-- Contacts are unpacked exactly if their records are whole, and then pack to the same octets. -/
theorem map_packAll_unpackContacts (s : Bytes) :
    (unpackContacts s).map Contact.packAll =
      if 26 ∣ s.length then .ok s else .error (.contactsLength s.length) := by
  rw [unpackContacts]
  cases hread : Contact.unpackAll? s with
  | none =>
      have hcut : ¬ 26 ∣ s.length :=
        mt Nat.mod_eq_zero_of_dvd (Contact.unpackAll?_eq_none_iff.mp hread)
      rw [if_neg hcut]
      rfl
  | some contacts =>
      have hwhole : 26 ∣ s.length := by
        by_contra hcut
        rw [Contact.unpackAll?_eq_none (mt Nat.dvd_of_mod_eq_zero hcut)] at hread
        cases hread
      rw [if_pos hwhole, ← Contact.packAll_of_unpackAll? hread]
      rfl

/-- A peer is unpacked from six octets, which it packs to, and from nothing else. -/
theorem map_pack?_unpackPeer (s : Bytes) :
    (unpackPeer (.bytes s)).map Address.pack? =
      if s.length = 6 then .ok (some s) else .error (.peerLength s.length) := by
  rw [unpackPeer]
  cases hread : Address.unpack? s with
  | none =>
      rw [if_neg (Address.unpack?_eq_none_iff.mp hread)]
      rfl
  | some address =>
      have hlength : s.length = 6 := by
        by_contra hne
        rw [Address.unpack?_eq_none_iff.mpr hne] at hread
        cases hread
      rw [if_pos hlength, ← Address.pack?_of_unpack? hread]
      rfl

end Krpc

/-- **Packed forms are exact.** A list of contacts that is packed and unpacked has lost those with
an address of version 6, in the same order. Octets can be unpacked as contacts exactly if their
number is a multiple of 26, and then the contacts pack to these octets; otherwise the failure tells
their number. An address of version 4 has a packed form, which unpacks to it; octets can be unpacked
as a peer exactly if there are six of them, and then the peer packs to them. Taking the octets by
their offsets comes to the same for all strings, so no access is out of range. -/
theorem packed_forms_are_exact :
    (∀ contacts, Krpc.unpackContacts (Contact.packAll contacts) =
      .ok (contacts.filter (·.address.isV4))) ∧
    (∀ s, (Krpc.unpackContacts s).map Contact.packAll =
        (if 26 ∣ s.length then .ok s else .error (.contactsLength s.length)) ∧
      Contact.unpackChecked s = Krpc.checked (Krpc.unpackContacts s)) ∧
    (∀ host port, ∃ s, (Address.v4 host port).pack? = some s ∧
      Krpc.unpackPeer (.bytes s) = .ok (.v4 host port)) ∧
    ∀ s, (Krpc.unpackPeer (.bytes s)).map Address.pack? =
        (if s.length = 6 then .ok (some s) else .error (.peerLength s.length)) ∧
      Address.unpackChecked s = Krpc.checked (Krpc.unpackPeer (.bytes s)) := by
  refine ⟨Krpc.unpackContacts_packAll, fun s => ?_, fun host port => ?_, fun s => ?_⟩
  · exact ⟨Krpc.map_packAll_unpackContacts s, Contact.unpackChecked_eq s⟩
  · have hpack : (Address.v4 host port).pack? = some _ := rfl
    obtain ⟨-, hread⟩ := Address.unpack?_of_pack? hpack
    exact ⟨_, hpack, by rw [Krpc.unpackPeer, hread]⟩
  · exact ⟨Krpc.map_pack?_unpackPeer s, Address.unpackChecked_eq s⟩

/-- Of two contacts the one of version 6 has no packed form; an octet less is no contact. -/
example :
    let near : Contact := ⟨⟨1⟩, .v4 ⟨10, 0, 0, 2⟩ 6881⟩
    let far : Contact := ⟨⟨2⟩, .v6 ⟨Vector.replicate 8 0⟩ 6881 0⟩
    Krpc.unpackContacts (Contact.packAll [far, near]) = .ok [near] ∧
      Krpc.unpackContacts ((Contact.packAll [far, near]).drop 1) = .error (.contactsLength 25) := by
  decide +kernel

end Mainline
