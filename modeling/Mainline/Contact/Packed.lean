import Mainline.Contact

/-!
# Packed contacts

Messages carry addresses as six octets, four of the host and two of the port, and contacts as the
twenty octets of the id followed by such an address. Only addresses of version 4 have a packed
form; others are left out of what is sent.
-/

namespace Mainline

/-- The packed form of an address of version 4. -/
def Address.pack? : Address → Option Bytes
  | v4 host port => some (host.a :: host.b :: host.c :: host.d :: bigEndian 2 port.toNat)
  | v6 .. => none

/-- The address that six octets stand for. -/
def Address.unpack? : Bytes → Option Address
  | [a, b, c, d, e, f] => some (v4 ⟨a, b, c, d⟩ (UInt16.ofNat (ofBigEndian [e, f])))
  | _ => none

namespace Contact

/-- The number of octets of a packed contact. -/
def packedLength : Nat := 26

/-- The packed form of a contact with an address of version 4. -/
def pack? (contact : Contact) : Option Bytes :=
  contact.address.pack?.map (contact.id.toBytes ++ ·)

/-- The contact that twenty-six octets stand for. -/
def unpack? (s : Bytes) : Option Contact := do
  let id ← Key.ofBytes? (s.take keyLength)
  let address ← Address.unpack? (s.drop keyLength)
  return ⟨id, address⟩

/-- The packed forms of all contacts that have one, one behind the other. -/
def packAll (contacts : List Contact) : Bytes :=
  (contacts.filterMap pack?).flatten

/-- The contacts that stand one behind the other, nothing if the last one is cut short. -/
def unpackAll? (s : Bytes) : Option (List Contact) :=
  if s = [] then
    some []
  else do
    let contact ← unpack? (s.take packedLength)
    let contacts ← unpackAll? (s.drop packedLength)
    return contact :: contacts
  termination_by s.length
  decreasing_by
    have := List.length_pos_iff.mpr ‹_›
    simp only [List.length_drop, packedLength]; omega

end Contact

end Mainline
