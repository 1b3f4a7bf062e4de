import Mainline.Proofs.Krpc.Reading
import Mainline.Proofs.Krpc.Record
import Mainline.Proofs.Text.Utf8

/-!
# Messages read back

A message reads back from the datagram that carries it, less the contacts that have no packed form.
The content of each kind of message reads back from its record, each record from its bencode form,
and the reader is told the method of a response from elsewhere.

## Main results

* `Query.ofArguments_arguments`, `Response.ofFields_fields`: contents read back from their records.
* `Message.decode_encode`: a message reads back from its datagram.
* `Message.withoutV6_of_decode`: a message that has been read has nothing to lose.
-/

namespace Mainline.Krpc

open Bencode (Value)

/-! ### Queries -/

/-- A port reads back from the integer it is sent as. -/
theorem toInt_port (port : UInt16) : port.toNat.toInt64.toInt = port.toNat := by
  have hlt := port.toNat_lt
  exact Int64.toInt_ofNat_of_lt (by omega)

/-- The arguments that an announcement is read from. -/
theorem Query.ofArguments_announcePeer {args : Value} {infoHash : Key} {port : UInt16}
    {token : Bytes} {implied : Option Int64}
    (hport : require args "port" .int = .ok port.toNat.toInt64)
    (hhash : requireKey args "info_hash" = .ok infoHash)
    (htoken : require args "token" .bytes = .ok token)
    (himplied : optional args "implied_port" .int = .ok implied) :
    Query.ofArguments .announcePeer args =
      .ok (.announcePeer infoHash port token (implied == some 1)) := by
  have hlt : (port.toNat : Int) < 65536 := Int.ofNat_lt.mpr port.toNat_lt
  rw [Query.ofArguments, hport, ok_bind, toInt_port, if_pos ⟨Int.natCast_nonneg _, hlt⟩, hhash,
    htoken, himplied, Int.toNat_natCast, UInt16.ofNat_toNat]
  rfl

/-- The sender of a query reads back from its arguments. -/
theorem Query.requireKey_arguments (sender : Key) (query : Query) :
    requireKey (query.arguments sender) "id" = .ok sender := by
  have hall : (["id", "info_hash", "port", "token", "implied_port"].map ascii).Nodup := by decide
  have htarget : (["id", "target"].map ascii).Nodup := by decide
  cases query with
  | ping => exact requireKey_record (hall.sublist (by simp [keys])) (by simp)
  | findNode target => exact requireKey_record htarget (by simp)
  | getPeers infoHash => exact requireKey_record (hall.sublist (by simp [keys])) (by simp)
  | announcePeer infoHash port token impliedPort =>
      refine requireKey_record (hall.sublist ?_) (by simp)
      cases impliedPort <;> simp [keys]

/-- **A query reads back from its arguments.** -/
theorem Query.ofArguments_arguments (sender : Key) (query : Query) :
    Query.ofArguments query.method (query.arguments sender) = .ok query := by
  cases query with
  | ping => rfl
  | findNode target =>
      have hkeys : (["id", "target"].map ascii).Nodup := by decide
      rw [Query.method, Query.arguments, Query.ofArguments, requireKey_record]
      · rfl
      · exact hkeys
      · simp
  | getPeers infoHash =>
      have hkeys : (["id", "info_hash"].map ascii).Nodup := by decide
      rw [Query.method, Query.arguments, Query.ofArguments, requireKey_record]
      · rfl
      · exact hkeys
      · simp
  | announcePeer infoHash port token impliedPort =>
      rw [Query.method, Query.arguments]
      cases impliedPort with
      | true =>
          have hkeys : (["id", "info_hash", "port", "token", "implied_port"].map ascii).Nodup := by
            decide
          rw [if_pos rfl]
          refine Query.ofArguments_announcePeer (require_record (.int port.toNat.toInt64) ?_ ?_ rfl)
            (requireKey_record ?_ ?_) (require_record (.bytes token) ?_ ?_ rfl)
            (optional_record (.int 1) ?_ ?_ rfl) <;> first | exact hkeys | simp
      | false =>
          have hkeys : (["id", "info_hash", "port", "token"].map ascii).Nodup := by decide
          have habsent : ascii "implied_port" ∉ ["id", "info_hash", "port", "token"].map ascii := by
            decide
          rw [if_neg Bool.false_ne_true, List.append_nil]
          refine Query.ofArguments_announcePeer (require_record (.int port.toNat.toInt64) ?_ ?_ rfl)
            (requireKey_record ?_ ?_) (require_record (.bytes token) ?_ ?_ rfl)
            (optional_record_absent ?_ ?_) <;> first | exact hkeys | exact habsent | simp

/-! ### Responses -/

/-- The response without the contacts and peers that have no packed form. -/
def Response.withoutV6 : Response → Response
  | ping id => ping id
  | findNode id nodes => findNode id (nodes.filter (·.address.isV4))
  | getPeers id token nodes peers =>
    getPeers id token (nodes.map (·.filter (·.address.isV4))) (peers.map (·.filter (·.isV4)))
  | announcePeer id => announcePeer id

/-- The addresses of all contacts and peers in a response. -/
def Response.addresses : Response → List Address
  | ping _ => []
  | findNode _ nodes => nodes.map (·.address)
  | getPeers _ _ nodes peers => (nodes.getD []).map (·.address) ++ peers.getD []
  | announcePeer _ => []

/-- A response has nothing to lose exactly if all its addresses are of version 4. -/
theorem Response.withoutV6_eq_self_iff (response : Response) :
    response.withoutV6 = response ↔ ∀ address ∈ response.addresses, address.isV4 = true := by
  cases response with
  | ping id | announcePeer id => simp [withoutV6, addresses]
  | findNode id nodes => simp [withoutV6, addresses]
  | getPeers id token nodes peers =>
      cases nodes <;> cases peers <;> simp [withoutV6, addresses, or_imp, forall_and]

theorem unpackContacts_packAll (contacts : List Contact) :
    unpackContacts (Contact.packAll contacts) = .ok (contacts.filter (·.address.isV4)) := by
  rw [unpackContacts, Contact.unpackAll?_packAll]

theorem isV4_of_unpackContacts {s : Bytes} {contacts : List Contact}
    (h : unpackContacts s = .ok contacts) : ∀ contact ∈ contacts, contact.address.isV4 = true := by
  rw [unpackContacts] at h
  split at h
  · next contacts' hread =>
      cases h
      exact Contact.isV4_of_unpackAll? hread
  · cases h

theorem isV4_of_unpackPeer {v : Value} {peer : Address} (h : unpackPeer v = .ok peer) :
    peer.isV4 = true := by
  unfold unpackPeer at h
  split at h
  · split at h
    · next peer' hread =>
        cases h
        exact Address.isV4_of_unpack? hread
    · cases h
  · cases h

/-- The values that peers are sent as. -/
def peerValues (peers : List Address) : List Value :=
  (peers.filterMap Address.pack?).map .bytes

theorem mapM_unpackPeer (peers : List Address) :
    (peerValues peers).mapM unpackPeer = .ok (peers.filter (·.isV4)) := by
  induction peers with
  | nil => rfl
  | cons peer peers ih =>
      have hsome := peer.isSome_pack?
      cases hpack : peer.pack? with
      | none =>
          rw [hpack] at hsome
          rw [peerValues, List.filterMap_cons_none hpack, List.filter_cons_of_neg (by simp [← hsome])]
          exact ih
      | some s =>
          rw [hpack] at hsome
          have hread : unpackPeer (.bytes s) = .ok peer := by
            rw [unpackPeer, (Address.unpack?_of_pack? hpack).2]
          rw [peerValues, List.filterMap_cons_some hpack, List.map_cons, List.mapM_cons, hread,
            ← peerValues, ih, List.filter_cons_of_pos (by simp [← hsome])]
          rfl

/-- The fields that an answer with peers is read from. -/
theorem Response.ofFields_getPeers {fields : Value} {id : Key} {token : Bytes}
    {nodes : Option (List Contact)} {peers : Option (List Address)}
    (hid : requireKey fields "id" = .ok id)
    (hnodes : optional fields "nodes" .bytes = .ok (nodes.map Contact.packAll))
    (hpeers : optional fields "values" .list = .ok (peers.map peerValues))
    (htoken : require fields "token" .bytes = .ok token) :
    Response.ofFields .getPeers fields = .ok (getPeers id token nodes peers).withoutV6 := by
  rw [Response.ofFields, hid, hnodes, hpeers, htoken]
  cases nodes <;> cases peers <;>
    simp [Response.withoutV6, unpackContacts_packAll, mapM_unpackPeer]

/-- What is read of a response has addresses of version 4 only. -/
theorem Response.isV4_of_ofFields {method : Method} {fields : Value} {response : Response}
    (h : Response.ofFields method fields = .ok response) :
    ∀ address ∈ response.addresses, address.isV4 = true := by
  simp only [Response.ofFields, bind_eq_ok_iff] at h
  obtain ⟨id, -, h⟩ := h
  cases method with
  | ping | announcePeer =>
      rw [pure_eq_ok_iff] at h
      simp [← h, addresses]
  | findNode =>
      simp only [bind_eq_ok_iff, pure_eq_ok_iff] at h
      obtain ⟨s, -, nodes, hnodes, rfl⟩ := h
      simpa [addresses] using isV4_of_unpackContacts hnodes
  | getPeers =>
      simp only [bind_eq_ok_iff, pure_eq_ok_iff] at h
      obtain ⟨s, -, nodes, hnodes, values, -, peers, hpeers, token, -, rfl⟩ := h
      intro address hmem
      obtain hmem | hmem := List.mem_append.mp hmem
      · obtain ⟨contact, hcontact, rfl⟩ := List.mem_map.mp hmem
        obtain ⟨-, rfl⟩ | ⟨s, contacts, -, hread, rfl⟩ := option_mapM_eq_ok_iff.mp hnodes
        · cases hcontact
        · exact isV4_of_unpackContacts hread contact hcontact
      · obtain ⟨-, rfl⟩ | ⟨items, peers, -, hread, rfl⟩ := option_mapM_eq_ok_iff.mp hpeers
        · cases hmem
        · obtain ⟨v, -, hpeer⟩ := exists_of_mem_mapM hread hmem
          exact isV4_of_unpackPeer hpeer

/-- **A response reads back from its fields**, without what has no packed form. -/
theorem Response.ofFields_fields (response : Response) :
    Response.ofFields response.method response.fields = .ok response.withoutV6 := by
  cases response with
  | ping id | announcePeer id =>
      have hkeys : (["id"].map ascii).Nodup := by decide
      rw [Response.method, Response.fields, Response.ofFields, requireKey_record]
      · rfl
      · exact hkeys
      · simp
  | findNode id nodes =>
      have hkeys : (["id", "nodes"].map ascii).Nodup := by decide
      rw [Response.method, Response.fields, Response.ofFields, requireKey_record,
        require_record (.bytes (Contact.packAll nodes)) ?_ ?_ rfl]
      · simp only [ok_bind, unpackContacts_packAll]
        rfl
      all_goals first | exact hkeys | simp
  | getPeers id token nodes peers =>
      have hall : (["id", "token", "nodes", "values"].map ascii).Nodup := by decide
      have hnodes : ascii "nodes" ∉ ["id", "token", "values"].map ascii := by decide
      have hvalues : ascii "values" ∉ ["id", "token", "nodes"].map ascii := by decide
      have hkeys : (keys ([("id", .bytes id.toBytes), ("token", .bytes token)] ++
          (nodes.toList.map fun nodes => ("nodes", .bytes (Contact.packAll nodes))) ++
          (peers.toList.map fun peers => ("values", .list (peerValues peers))))).Nodup := by
        refine hall.sublist ?_
        cases nodes <;> cases peers <;> simp [keys]
      rw [Response.method, Response.fields]
      refine Response.ofFields_getPeers (requireKey_record hkeys ?_)
        (optional_record_option (.bytes ∘ Contact.packAll) (fun _ => rfl) rfl hkeys ?_)
        (optional_record_option (.list ∘ peerValues) (fun _ => rfl) (List.append_nil _).symm
          hkeys ?_)
        (require_record (.bytes token) hkeys ?_ rfl)
      · simp
      · refine fun hmem => hnodes (List.Sublist.subset ?_ hmem)
        cases peers <;> simp [keys]
      · refine fun hmem => hvalues (List.Sublist.subset ?_ hmem)
        cases nodes <;> simp [keys]
      · simp

/-! ### Writing messages -/

theorem Query.fits_arguments (sender : Key) (query : Query) : Fits 1 (query.arguments sender) := by
  cases query with
  | ping | findNode | getPeers => exact fits_record (by simp)
  | announcePeer infoHash port token impliedPort =>
      refine fits_record ?_
      cases impliedPort <;> simp

theorem fits_peerValues (peers : List Address) : Fits 1 (.list (peerValues peers)) := by
  refine fits_list fun v hv => ?_
  obtain ⟨s, -, rfl⟩ := List.mem_map.mp hv
  exact fits_bytes 0 s

theorem Response.fits_fields (response : Response) : Fits 2 response.fields := by
  cases response with
  | ping | announcePeer | findNode => exact fits_record (by simp)
  | getPeers id token nodes peers =>
      have hvalues := fits_peerValues
      simp only [peerValues] at hvalues
      refine fits_record ?_
      cases nodes <;> cases peers <;> simp [hvalues]

/-- A message lies in three containers at most. -/
theorem Message.fits_toValue (m : Message) : Fits 3 m.toValue := by
  obtain ⟨transaction, ⟨sender, query⟩ | response | error⟩ := m
  · refine fits_record ?_
    have hargs : Fits 2 (query.arguments sender) :=
      (query.fits_arguments sender).imp_right fun h => Nat.le_succ_of_le h
    simp [hargs]
  · refine fits_record ?_
    simp [response.fits_fields]
  · refine fits_record ?_
    have hitems : Fits 2 (.list [.int error.code, .bytes (Utf8.encode error.text)]) :=
      fits_list (by simp)
    simp [hitems]

/-- The bencode form of a message reads back. -/
theorem Message.bencode_decode_encode {m : Message} (sized : m.toValue.Sized) :
    Bencode.decode m.encode = .ok m.toValue := by
  obtain ⟨canonical, hdepth⟩ := m.fits_toValue
  exact Bencode.decode_encode canonical (Nat.le_trans hdepth (by decide)) sized

/-! ### Messages -/

/-- The keys of a message but that of its content. -/
def Body.headKeys : Body → List String
  | .query .. => ["t", "y", "q"]
  | .response _ | .error _ => ["t", "y"]

/-- The key of the content of a message. -/
def Body.contentKey : Body → String
  | .query .. => "a"
  | .response _ => "r"
  | .error _ => "e"

/-- The keys of a message. -/
def Body.keys (body : Body) : List String :=
  body.headKeys ++ [body.contentKey]

/-- What kind of message this is the body of. -/
def Body.kind : Body → Kind
  | .query .. => .query
  | .response _ => .response
  | .error _ => .error

/-- The name of a kind, under `y`. -/
def Kind.name : Kind → String
  | .query => "q"
  | .response => "r"
  | .error => "e"

theorem Kind.ofName?_name (kind : Kind) : Kind.ofName? (ascii kind.name) = some kind := by
  cases kind <;> decide

theorem Body.nodup_keys (body : Body) : (body.keys.map ascii).Nodup := by
  have hquery : (["t", "y", "q", "a"].map ascii).Nodup := by decide
  have hresponse : (["t", "y", "r"].map ascii).Nodup := by decide
  have herror : (["t", "y", "e"].map ascii).Nodup := by decide
  cases body with
  | query sender query => exact hquery
  | response response => exact hresponse
  | error error => exact herror

/-- The transaction id reads back from a message. -/
theorem Message.require_transaction (m : Message) :
    require m.toValue "t" .bytes = .ok m.transaction := by
  have hkeys := m.body.nodup_keys
  obtain ⟨transaction, ⟨sender, query⟩ | response | error⟩ := m <;>
    exact require_record (.bytes transaction) hkeys (by simp) rfl

/-- The name of its kind reads back from a message. -/
theorem Message.require_kind (m : Message) :
    require m.toValue "y" .bytes = .ok (ascii m.body.kind.name) := by
  have hkeys := m.body.nodup_keys
  obtain ⟨transaction, ⟨sender, query⟩ | response | error⟩ := m
  · exact require_record (.bytes (ascii "q")) hkeys (by simp) rfl
  · exact require_record (.bytes (ascii "r")) hkeys (by simp) rfl
  · exact require_record (.bytes (ascii "e")) hkeys (by simp) rfl

section Envelope

variable {fields : List (String × Value)} {transaction : Bytes} {kind : Kind}

/-- A query reads back from its envelope. -/
theorem Envelope.query_of_record {sender : Key} {query : Query} (hkeys : (keys fields).Nodup)
    (hname : ("q", .bytes (ascii query.method.name)) ∈ fields)
    (hargs : ("a", query.arguments sender) ∈ fields) :
    Envelope.query ⟨transaction, kind, record fields⟩ = .ok (.query sender query) := by
  have hread : Bencode.FieldType.dict.read (query.arguments sender) =
      some (query.arguments sender) := by
    cases query <;> rfl
  exact Envelope.query_of_fields (require_record _ hkeys hname rfl)
    (require_record _ hkeys hargs hread) (query.requireKey_arguments sender)
    (query.ofArguments_arguments sender)

/-- A response reads back from its envelope, without what has no packed form. -/
theorem Envelope.response_of_record {response : Response} (hkeys : (keys fields).Nodup)
    (hfields : ("r", response.fields) ∈ fields) :
    Envelope.response ⟨transaction, kind, record fields⟩ response.method =
      .ok (.response response.withoutV6) := by
  have hread : Bencode.FieldType.dict.read response.fields = some response.fields := by
    cases response <;> rfl
  exact Envelope.response_of_fields (require_record _ hkeys hfields hread) response.ofFields_fields

/-- An error reads back from its envelope. -/
theorem Envelope.error_of_record {error : RemoteError} (hkeys : (keys fields).Nodup)
    (hitems : ("e", .list [.int error.code, .bytes (Utf8.encode error.text)]) ∈ fields) :
    Envelope.error ⟨transaction, kind, record fields⟩ = .ok (.error error) := by
  refine Envelope.error_of_fields (require_record _ hkeys hitems rfl) ?_
  rw [RemoteError.ofItems, Utf8.decodeLossy_encode]

end Envelope

/-- The message without the contacts and peers that have no packed form. -/
def Message.withoutV6 : Message → Message
  | ⟨transaction, .response response⟩ => ⟨transaction, .response response.withoutV6⟩
  | m => m

/-- **A message reads back from its datagram**, without what has no packed form, if the reader of a
response is told its method. -/
theorem Message.decode_encode {m : Message} {expected : Bytes → Option Method}
    (sized : m.toValue.Sized)
    (hexpected : ∀ r, m.body = .response r → expected m.transaction = some r.method) :
    Message.decode m.encode expected = .ok m.withoutV6 := by
  have hkeys := m.body.nodup_keys
  have henvelope := Envelope.decode_of_fields (Message.bencode_decode_encode sized)
    m.require_transaction m.require_kind m.body.kind.ofName?_name
  rw [Message.decode_eq_ok_iff]
  obtain ⟨transaction, ⟨sender, query⟩ | response | error⟩ := m
  · exact ⟨_, henvelope, rfl, .query rfl (Envelope.query_of_record hkeys (by simp) (by simp))⟩
  · exact ⟨_, henvelope, rfl,
      .response rfl (hexpected response rfl) (Envelope.response_of_record hkeys (by simp))⟩
  · exact ⟨_, henvelope, rfl, .error rfl (Envelope.error_of_record hkeys (by simp))⟩

/-! ### What has been read -/

/-- The addresses of all contacts and peers in a message. -/
def Message.addresses : Message → List Address
  | ⟨_, .response response⟩ => response.addresses
  | _ => []

/-- A message has nothing to lose exactly if all its addresses are of version 4. -/
theorem Message.withoutV6_eq_self_iff (m : Message) :
    m.withoutV6 = m ↔ ∀ address ∈ m.addresses, address.isV4 = true := by
  obtain ⟨transaction, ⟨sender, query⟩ | response | error⟩ := m
  · simp [Message.withoutV6, Message.addresses]
  · simp [Message.withoutV6, Message.addresses, response.withoutV6_eq_self_iff]
  · simp [Message.withoutV6, Message.addresses]

/-- **A message that has been read has nothing to lose.** -/
theorem Message.withoutV6_of_decode {data : Bytes} {expected : Bytes → Option Method} {m : Message}
    (h : Message.decode data expected = .ok m) : m.withoutV6 = m := by
  rw [Message.withoutV6_eq_self_iff]
  obtain ⟨transaction, ⟨sender, query⟩ | response | error⟩ := m
  · simp [Message.addresses]
  · obtain ⟨-, fields, hfields⟩ := Message.ofFields_of_decode h
    exact Response.isV4_of_ofFields hfields
  · simp [Message.addresses]

/-- **The wire format loses nothing but what has no packed form.** A message that a machine can hold
reads back from its datagram without its contacts and peers of version 6, if the reader of a
response is told its method; with addresses of version 4 only it reads back as it was. And whatever
datagram a message was read from, writing it and reading it once more returns the same message. -/
theorem Message.wire_round_trip (expected : Bytes → Option Method) :
    (∀ m : Message, m.toValue.Sized →
      (∀ r, m.body = .response r → expected m.transaction = some r.method) →
      Message.decode m.encode expected = .ok m.withoutV6 ∧
        ((∀ address ∈ m.addresses, address.isV4 = true) →
          Message.decode m.encode expected = .ok m)) ∧
    ∀ data m, Message.decode data expected = .ok m → m.toValue.Sized →
      Message.decode m.encode expected = .ok m := by
  constructor
  · intro m sized hexpected
    have hdecode := Message.decode_encode sized hexpected
    refine ⟨hdecode, fun hv4 => ?_⟩
    rwa [m.withoutV6_eq_self_iff.mpr hv4] at hdecode
  · intro data m hread sized
    have hexpected : ∀ r, m.body = .response r → expected m.transaction = some r.method := by
      obtain ⟨transaction, body⟩ := m
      rintro r rfl
      exact (Message.ofFields_of_decode hread).1
    have hdecode := Message.decode_encode sized hexpected
    rwa [Message.withoutV6_of_decode hread] at hdecode

/-- Of the two nodes in a response, the one that has a packed form reads back. -/
theorem Message.wire_round_trip_nodes :
    let near : Contact := ⟨⟨1⟩, .v4 ⟨10, 0, 0, 2⟩ 6881⟩
    let far : Contact := ⟨⟨2⟩, .v6 ⟨Vector.replicate 8 0⟩ 6881 0⟩
    let m : Message := ⟨[0, 1], .response (.findNode ⟨0⟩ [far, near])⟩
    m.toValue.Sized ∧
      Message.decode m.encode (fun _ => some .findNode) =
        .ok ⟨[0, 1], .response (.findNode ⟨0⟩ [near])⟩ := by
  intro near far m
  have sized : ∀ s ∈ m.toValue.strings, s.length < UInt64.size := by decide +kernel
  have hexpected : ∀ r, m.body = .response r → some Method.findNode = some r.method := by
    rintro r ⟨⟩
    rfl
  have law := Message.wire_round_trip fun _ => some .findNode
  exact ⟨sized, (law.1 m sized hexpected).1⟩

end Mainline.Krpc
