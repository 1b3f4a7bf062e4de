import Mainline.Address.Text
import Mainline.Key

/-!
# Contacts

A contact is all one needs to query a node: its id and its address.
-/

namespace Mainline

/-- A node id and the address it is reached at. -/
structure Contact where
  id : Key
  address : Address
deriving DecidableEq, Repr, Inhabited

/-- The text of a contact: its id and its address. -/
def Contact.toString (contact : Contact) : String :=
  contact.id.toHex ++ "@" ++ contact.address.toString

end Mainline
